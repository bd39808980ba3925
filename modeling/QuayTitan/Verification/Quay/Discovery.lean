import QuayTitan.Model.Quay.Creation
import QuayTitan.Model.VenueMethods
import QuayTitan.Verification.Quay.Reached
import QuayTitan.Verification.Quay.Sessions

/-! # From a pool creation to a quoted venue

The life of the venues of a router: they are found in transactions, built, updated through the
shared cache and quoted. -/

namespace QuayTitan.Quay

open AccountCaching Attempts Fallible Relation ByteFields

/-! ## Discovery -/

/-- An instruction that creates a strategy. -/
structure Creates (ix : ParsedInstruction) (creation : PoolCreation) : Prop where
  program_eq : ix.programId = quayProgramId
  discriminator_eq : ix.data.head? = some discInitStrategy
  protocol_eq : creation.protocol = .quay
  pool_eq : ix.accounts[0]? = some creation.pool
  mints_eq : ∃ baseMint quoteMint, ix.accounts[5]? = some baseMint ∧
    ix.accounts[6]? = some quoteMint ∧ creation.mints = [baseMint, quoteMint]

/-- The pools found are those the instructions create. -/
theorem mem_parsePoolCreations {instructions : List ParsedInstruction} {creation : PoolCreation} :
    creation ∈ parsePoolCreations instructions ↔ ∃ ix ∈ instructions, Creates ix creation := by
  simp only [parsePoolCreations, List.mem_filterMap, List.mem_filter, Bool.and_eq_true,
    decide_eq_true_eq, Option.bind_eq_bind, Option.bind_eq_some_iff, Option.pure_def,
    Option.some.injEq, List.head?_eq_getElem?]
  constructor
  · rintro ⟨ix, ⟨hix, hprogram, hdata⟩, pool, hpool, base, hbase, quote, hquote, rfl⟩
    exact ⟨ix, hix, hprogram, by rwa [List.head?_eq_getElem?], rfl, hpool, base, quote, hbase,
      hquote, rfl⟩
  · rintro ⟨ix, hix, hprogram, hdata, hprotocol, hpool, base, quote, hbase, hquote, hmints⟩
    refine ⟨ix, ⟨hix, hprogram, by rwa [← List.head?_eq_getElem?]⟩, _, hpool, base, hbase, quote,
      hquote, ?_⟩
    cases creation
    simp_all

/-! ## A lifetime -/

variable {ι : Type} [DecidableEq ι] {sdk : Sdk} {rpcs : RpcClient → Prop}
  {chains : (Pubkey → Option Account) → Prop} {s s' : Session ι} {i : ι}

/-- One use of the shared cache, or a reset of it. -/
inductive LifetimeStep (sdk : Sdk) (rpcs : RpcClient → Prop) (s s' : Session ι) : Prop
  | uses (step : SessionStep sdk rpcs s s')
  | resets (after_eq : s' = s.reset)

/-- Any uses and resets of the cache, in any order. -/
abbrev Lifetime (sdk : Sdk) (rpcs : RpcClient → Prop) : Session ι → Session ι → Prop :=
  ReflTransGen (LifetimeStep sdk rpcs)

/-- Every account of the snapshot is from a state of the chain that was served. -/
def Seen (chains : (Pubkey → Option Account) → Prop) (snapshot : Pubkey → Option Account) : Prop :=
  ∀ key account, snapshot key = some account → ∃ chain, chains chain ∧ chain key = some account

theorem LifetimeStep.venue (h : LifetimeStep sdk rpcs s s') (i : ι) :
    s'.venues i = s.venues i ∨
      QuayVenue.updateState sdk (.ofChain s'.cache.held) (s.venues i) = .ok ⟨⟩ (s'.venues i) := by
  cases h with
  | uses step => exact step.updated i
  | resets after_eq =>
      rw [after_eq]
      exact .inl rfl

/-- A venue is as it was, or as its last update in the lifetime left it. -/
theorem Lifetime.lastUpdate (h : Lifetime sdk rpcs s s') (i : ι) :
    s'.venues i = s.venues i ∨ ∃ before after, Lifetime sdk rpcs s before ∧
      Lifetime sdk rpcs s after ∧
      QuayVenue.updateState sdk (.ofChain after.cache.held) (before.venues i) =
        .ok ⟨⟩ (s'.venues i) := by
  induction h with
  | refl => exact .inl rfl
  | @tail before after hearlier hlast ih =>
      rcases hlast.venue i with hsame | hupdate
      · rw [hsame]
        exact ih
      · exact .inr ⟨before, after, hearlier, hearlier.tail hlast, hupdate⟩

section Served

variable (hrpcs : ∀ rpc, rpcs rpc → ∃ chain, chains chain ∧ rpc.Serves chain)

include hrpcs

theorem LifetimeStep.seen (h : LifetimeStep sdk rpcs s s') (hseen : Seen chains s.cache.held) :
    Seen chains s'.cache.held := by
  intro key account hheld
  cases h with
  | uses step =>
      rcases step.entry hrpcs key with hsame | ⟨chain, hchain, hfilled⟩
      · refine hseen key account ?_
        rwa [RpcClientCache.held, ← hsame]
      · rw [RpcClientCache.held, hfilled] at hheld
        exact ⟨chain, hchain, hheld⟩
  | resets after_eq =>
      rw [after_eq] at hheld
      cases hheld

theorem Lifetime.seen (h : Lifetime sdk rpcs s s') (hseen : Seen chains s.cache.held) :
    Seen chains s'.cache.held := by
  induction h with
  | refl => exact hseen
  | tail _ hlast ih => exact hlast.seen hrpcs ih

/-- A venue of a router that shares its cache and resets it at will is a venue updated on its
own, one time after the other, from snapshots of accounts the chain really had. -/
theorem Lifetime.refines (h : Lifetime sdk rpcs s s') (hseen : Seen chains s.cache.held) (i : ι) :
    ∃ snapshots : List (Pubkey → Option Account), (∀ snapshot ∈ snapshots, Seen chains snapshot) ∧
      s'.venues i = run (QuayVenue.updateState sdk) (snapshots.map .ofChain) (s.venues i) := by
  induction h with
  | refl => exact ⟨[], by simp, rfl⟩
  | @tail before after hbefore hlast ih =>
      obtain ⟨snapshots, hsnapshots, hrun⟩ := ih
      rcases hlast.venue i with hsame | hupdate
      · exact ⟨snapshots, hsnapshots, hsame.trans hrun⟩
      · refine ⟨snapshots ++ [after.cache.held], ?_, ?_⟩
        · have hafter := hlast.seen hrpcs (Lifetime.seen hrpcs hbefore hseen)
          simpa [or_imp, forall_and] using ⟨hsnapshots, hafter⟩
        · rw [List.map_append, List.map_singleton, run_concat, ← hrun, hupdate, finalState]

/-- The venue of a discovered pool opens by an update in its lifetime, from accounts the chain
really had: the pool's own strategy first, opted in and with nothing halted, and every account
the venue requires. It trades the mints of the creation when the strategy was created with
them. -/
theorem discovered_gated {instructions : List ParsedInstruction} {creation : PoolCreation}
    {account : Account} (hfits : BindingFits sdk)
    (hcreation : creation ∈ parsePoolCreations instructions)
    (hbuilt : QuayVenue.fromAccount sdk creation.pool account = .ok (s.venues i))
    (hseen : Seen chains s.cache.held) (h : Lifetime sdk rpcs s s')
    (hinit : (s'.venues i).initialized sdk = true) :
    (∃ ix ∈ instructions, Creates ix creation) ∧
    (∀ header, sdk.strategyTryFromAccount account.data = .ok header →
      creation.mints = [header.baseMint, header.quoteMint] →
      (s'.venues i).tradableMints = creation.mints) ∧
    ∃ before snapshot requested strategy mm cfg, Lifetime sdk rpcs s before ∧
      requested = (before.venues i).requiredUpdatePubkeys ∧
      requested.head? = some creation.pool ∧
      QuayVenue.updateState sdk (.ofChain snapshot) (before.venues i) = .ok ⟨⟩ (s'.venues i) ∧
      Seen chains snapshot ∧
      OpenAnswer sdk requested (requested.map snapshot) (s'.venues i) strategy mm cfg ∧
      ∀ key ∈ (s'.venues i).requiredUpdatePubkeys, ∃ account, snapshot key = some account := by
  obtain ⟨strategy, hconstructed⟩ := fromAccount_ok_iff.mp hbuilt
  have hkeys (after : Session ι) (hafter : Lifetime sdk rpcs s after) :
      SameKeys (after.venues i) (s.venues i) := by
    obtain ⟨snapshots, _, hrun⟩ := hafter.refines hrpcs hseen i
    rw [hrun]
    exact run_sameKeys sdk _ (s.venues i)
  refine ⟨mem_parsePoolCreations.mp hcreation, fun header hheader hmints => ?_, ?_⟩
  · obtain ⟨snapshots, _, hrun⟩ := h.refines hrpcs hseen i
    have hreached : Reached sdk (s'.venues i) := ⟨_, _, _, _, hbuilt, hrun.symm⟩
    obtain ⟨base, quote, hpair⟩ := hreached.pairTokens hinit
    have hsame := hkeys s' h
    obtain rfl := Except.ok.inj (hconstructed.decoded.symm.trans hheader)
    have hbase := hsame.baseMint.trans (congrArg QuayVenue.baseMint hconstructed.venue_eq)
    have hquote := hsame.quoteMint.trans (congrArg QuayVenue.quoteMint hconstructed.venue_eq)
    rw [hmints, QuayVenue.tradableMints, TradingVenue.tradableMints, hpair.tokens_eq]
    simp only [List.map_cons, List.map_nil, hpair.base_eq, hpair.quote_eq, hbase, hquote]
    rfl
  · rcases h.lastUpdate i with hstart | ⟨before, after, hbefore, hafter, hupdate⟩
    · rw [hstart, hconstructed.not_initialized] at hinit
      cases hinit
    · have hpool : (before.venues i).strategyKey = creation.pool :=
        (hkeys before hbefore).strategyKey.trans
          (congrArg QuayVenue.strategyKey hconstructed.venue_eq)
      obtain ⟨snap, hanswers, hcommit⟩ := updateState_ok_iff.mp hupdate
      have hfetched := Except.ok.inj hanswers.fetched
      have hopen := hanswers.openAnswer hfits (hcommit ▸ hinit)
      rw [← hfetched, ← hcommit] at hopen
      -- the opened venue would come out of the same snapshot unchanged
      have hfixed := updateState_settled hupdate hinit fun _ _ hheld => hheld
      exact ⟨before, after.cache.held, _, _, _, _, hbefore, rfl, congrArg some hpool, hupdate,
        hafter.seen hrpcs hseen, hopen, fun key => exists_required hinit hfixed⟩

end Served

namespace Sample

/-- A transaction that creates the strategy after an instruction of another program. -/
def instructions : List ParsedInstruction :=
  [⟨key 99, [key 98], [0x10]⟩,
    ⟨quayProgramId, [strategyKey, key 3, key 2000, key 3, systemProgramId, key 4, key 5],
      [0x10, 0, 0]⟩]

/-- The cache is reset between the update of the first venue and the second's. -/
def resetSecond : Session Bool :=
  firstUpdated.reset.update (sdkWith rising) (.ofChain (chainAt 8)) true

def resetFirst : Session Bool :=
  resetSecond.update (sdkWith rising) (.ofChain (chainAt 8)) false

theorem lifetime_pair : Lifetime (sdkWith rising) Answering pair resetFirst := by
  have hreset : Lifetime (sdkWith rising) Answering pair pair.reset := .single (.resets rfl)
  have hfirst : Lifetime (sdkWith rising) Answering pair firstUpdated :=
    hreset.tail (.uses (.updates _ answering_before false rfl))
  have hagain : Lifetime (sdkWith rising) Answering pair firstUpdated.reset :=
    hfirst.tail (.resets rfl)
  have hsecond : Lifetime (sdkWith rising) Answering pair resetSecond :=
    hagain.tail (.uses (.updates _ answering_after true rfl))
  exact hsecond.tail (.uses (.updates _ answering_after false rfl))

/-- After the reset the first venue reads the moved quotes. -/
theorem discovered_gated_sample :
    (resetFirst.venues false).tradableMints = [key 4, key 5] ∧
    (resetFirst.venues false).quotesData = [8] ∧
    ∃ before snapshot requested strategy mm cfg,
      Lifetime (sdkWith rising) Answering pair before ∧
      requested = (before.venues false).requiredUpdatePubkeys ∧
      requested.head? = some strategyKey ∧
      QuayVenue.updateState (sdkWith rising) (.ofChain snapshot) (before.venues false) =
        .ok ⟨⟩ (resetFirst.venues false) ∧
      Seen Moving snapshot ∧
      OpenAnswer (sdkWith rising) requested (requested.map snapshot) (resetFirst.venues false)
        strategy mm cfg ∧
      ∀ key ∈ (resetFirst.venues false).requiredUpdatePubkeys,
        ∃ account, snapshot key = some account := by
  have hfacts : ⟨.quay, strategyKey, [key 4, key 5]⟩ ∈ parsePoolCreations instructions ∧
      (resetFirst.venues false).initialized (sdkWith rising) = true ∧
      (resetFirst.venues false).quotesData = [8] := by
    decide +kernel
  obtain ⟨hcreation, hinit, hquotes⟩ := hfacts
  have hseen : Seen Moving pair.cache.held := fun _ _ hnone => by cases hnone
  have hbuilt : QuayVenue.fromAccount (sdkWith rising) strategyKey strategyAccount =
      .ok (pair.venues false) := fromAccount_ok rising
  obtain ⟨_, hmints, hopened⟩ := discovered_gated (fun _ hserved => hserved) (bindingFits rising)
    hcreation hbuilt hseen lifetime_pair hinit
  exact ⟨hmints header rfl rfl, hquotes, hopened⟩

end Sample

end QuayTitan.Quay
