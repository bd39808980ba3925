import QuayTitan.Verification.Route.Histories
import QuayTitan.Verification.SwapRoute.Slicing

/-! # Sending a built route

What the program's entry point makes of the bytes and the accounts the builder put together. -/

namespace QuayTitan.SwapRoute

open Fallible Route

variable {rt : Runtime} {derive : Derivation}

def associatedTokenProgramId : Pubkey :=
  .ofBase58 "ATokenGPvbdGVxr1b2hvZbsiqW5xWH25efTNsLJA8knL"

/-- The named accounts in the order of the context; the id of the program stands for the
optional accounts that are not used. -/
def namedMetas (accounts : SwapRouteV3) : List AccountMeta :=
  [⟨accounts.payer, true, true⟩, ⟨accounts.user, true, true⟩, ⟨accounts.titanPda, false, false⟩,
    ⟨accounts.inputTokenAccount, false, true⟩, ⟨accounts.outputTokenAccount, false, true⟩,
    ⟨accounts.tokenProgram, false, false⟩, ⟨accounts.token2022Program, false, false⟩,
    ⟨systemProgramId, false, false⟩, ⟨associatedTokenProgramId, false, false⟩,
    ⟨accounts.tokenLedger.getD Route.programId, false, false⟩, ⟨Route.programId, false, false⟩,
    ⟨Route.programId, false, false⟩]

section Built

variable (accounts : SwapRouteV3) (front : List AccountMeta)
  (legs : List (BuiltLeg accounts.titanPda))

/-- The accounts of the instruction: the named ones, two per mint, and those of the legs. -/
def builtMetas : List AccountMeta := namedMetas accounts ++ front ++ legAccounts legs

/-- What the runtime shows of them to the program. -/
def builtInfos : List AccountInfo :=
  (builtMetas accounts front legs).map (presented (builtMetas accounts front legs))

def builtContext : Context where
  accounts := accounts
  remainingAccounts :=
    (front ++ legAccounts legs).map (presented (builtMetas accounts front legs))

end Built

variable {accounts : SwapRouteV3} {front : List AccountMeta}
  {legs : List (BuiltLeg accounts.titanPda)}

/-- The named accounts as the runtime shows them. -/
def builtNamed (accounts : SwapRouteV3) (metas : List AccountMeta) : RouteInfos where
  payer := presented metas ⟨accounts.payer, true, true⟩
  user := presented metas ⟨accounts.user, true, true⟩
  titanPda := presented metas ⟨accounts.titanPda, false, false⟩
  inputTokenAccount := presented metas ⟨accounts.inputTokenAccount, false, true⟩
  outputTokenAccount := presented metas ⟨accounts.outputTokenAccount, false, true⟩
  tokenProgram := presented metas ⟨accounts.tokenProgram, false, false⟩
  token2022Program := presented metas ⟨accounts.token2022Program, false, false⟩
  systemProgram := presented metas ⟨systemProgramId, false, false⟩
  associatedTokenProgram := presented metas ⟨associatedTokenProgramId, false, false⟩
  tokenLedger := presented metas ⟨accounts.tokenLedger.getD Route.programId, false, false⟩
  reservedOptionalAccount0 := presented metas ⟨Route.programId, false, false⟩
  reservedOptionalAccount1 := presented metas ⟨Route.programId, false, false⟩

theorem builtInfos_eq :
    builtInfos accounts front legs =
      (builtNamed accounts (builtMetas accounts front legs)).toList ++
        (builtContext accounts front legs).remainingAccounts := by
  rw [builtInfos, builtContext, ← List.append_nil (builtNamed _ _).toList, List.append_assoc]
  conv_lhs => rw [builtMetas, List.append_assoc, List.map_append]
  rfl

theorem builtNamed_context {metas : List AccountMeta} (remaining : List AccountInfo)
    (hledger : accounts.tokenLedger ≠ some Route.programId) :
    (builtNamed accounts metas).context remaining = ⟨accounts, remaining⟩ := by
  have hoptional : AccountInfo.optional
      (presented metas ⟨accounts.tokenLedger.getD Route.programId, false, false⟩) =
      accounts.tokenLedger := by
    unfold AccountInfo.optional presented
    cases hcase : accounts.tokenLedger with
    | none => simp
    | some ledger =>
        have hne : ledger ≠ Route.programId := fun heq => hledger (hcase.trans (congrArg some heq))
        simp [hne]
  have hcontext : (builtNamed accounts metas).context remaining =
      ⟨{ accounts with
          tokenLedger := AccountInfo.optional
            (presented metas ⟨accounts.tokenLedger.getD Route.programId, false, false⟩) },
        remaining⟩ := rfl
  rw [hcontext, hoptional]

/-- Flags are kept: the sender signs, and what the program writes is writable. -/
theorem builtNamed_signed {metas : List AccountMeta}
    (hmem : ∀ entry ∈ namedMetas accounts, entry ∈ metas) :
    (builtNamed accounts metas).Signed where
  payer_signs := presented_isSigner (hmem _ (by simp [namedMetas])) rfl
  user_signs := presented_isSigner (hmem _ (by simp [namedMetas])) rfl
  system_eq := rfl
  payer_writable := presented_isWritable (hmem _ (by simp [namedMetas])) rfl
  user_writable := presented_isWritable (hmem _ (by simp [namedMetas])) rfl
  input_writable := presented_isWritable (hmem _ (by simp [namedMetas])) rfl
  output_writable := presented_isWritable (hmem _ (by simp [namedMetas])) rfl

/-- The derived checks pass in any bank that holds TitanPDA's state. -/
theorem tryAccounts_built {bank : Bank} {state : TitanPda}
    (hledger : accounts.tokenLedger ≠ some Route.programId)
    (hstate : titanAt bank accounts.titanPda = some state)
    (hderived : derive [TitanPda.seed, [state.bump]] Route.programId = some accounts.titanPda) :
    SwapRouteV3.tryAccounts derive (builtInfos accounts front legs) bank =
      .ok (builtContext accounts front legs) := by
  refine SwapRouteV3.tryAccounts_eq_ok.mpr ⟨_, builtInfos_eq, ?_, state, ?_⟩
  · exact (builtNamed_context _ hledger).symm
  · refine ⟨builtNamed_signed fun entry hentry => ?_, hstate, hderived⟩
    rw [builtMetas, List.append_assoc]
    exact List.mem_append_left _ hentry

/-- The data of a built route chooses the route instruction. -/
theorem dispatch_route {program : VenueProgram} {infos : List AccountInfo} {amount : UInt64}
    {mints : UInt8} {swaps : List SwapSpecInputV2} {bank : Bank} :
    dispatch rt derive program infos (encodeSwapRouteV3Data amount mints swaps) bank =
      runSwapRouteV3 rt derive program infos (encodeSwapRouteV3Data amount mints swaps) bank := by
  rfl

/-- The builder takes TitanPDA's signature out of every leg. -/
theorem not_titanPda_of_signer {titanPda : Pubkey} {leg : BuiltLeg titanPda} {entry : AccountMeta}
    (h : entry ∈ leg.accounts) (hsigner : entry.isSigner = true) : entry.pubkey ≠ titanPda := by
  rw [BuiltLeg.accounts, assembleLegAccounts] at h
  rcases List.mem_append.mp h with hacc | hprogram
  · obtain ⟨acc, _, rfl⟩ := List.mem_map.mp hacc
    by_cases htitan : acc.pubkey = titanPda
    · rw [if_pos htitan] at hsigner
      cases hsigner
    · rw [if_neg htitan]
      exact htitan
  · obtain rfl := List.mem_singleton.mp hprogram
    cases hsigner

/-- TitanPDA is no signer of the transaction. -/
theorem builtInfos_titanPda (hpayer : accounts.payer ≠ accounts.titanPda)
    (huser : accounts.user ≠ accounts.titanPda)
    (hfront : ∀ entry ∈ front, entry.isSigner = true → entry.pubkey ≠ accounts.titanPda) :
    ∀ info ∈ builtInfos accounts front legs, info.key = accounts.titanPda →
      info.isSigner = false := by
  have hmetas : ∀ entry ∈ builtMetas accounts front legs, entry.isSigner = true →
      entry.pubkey ≠ accounts.titanPda := by
    intro entry hentry hsigner
    rcases List.mem_append.mp hentry with hhead | hleg
    · rcases List.mem_append.mp hhead with hnamed | hmint
      · simp only [namedMetas, List.mem_cons, List.not_mem_nil, or_false] at hnamed
        rcases hnamed with rfl | rfl | hrest
        · exact hpayer
        · exact huser
        · rcases hrest with rfl | rfl | rfl | rfl | rfl | rfl | rfl | rfl | rfl | rfl <;>
            cases hsigner
      · exact hfront entry hmint hsigner
    · obtain ⟨leg, _, hmem⟩ := List.mem_flatMap.mp hleg
      exact not_titanPda_of_signer hmem hsigner
  intro info hinfo hkey
  obtain ⟨entry, _, rfl⟩ := List.mem_map.mp hinfo
  rw [Bool.eq_false_iff]
  intro hsigner
  obtain ⟨other, hother, hmatch⟩ := List.any_eq_true.mp hsigner
  simp only [Bool.and_eq_true, decide_eq_true_eq] at hmatch
  exact hmetas other hother hmatch.2 (hmatch.1.trans hkey)

/-- A built route is the execution it was built for: the entry point decodes its legs, accepts
its accounts and runs the handler on them; TitanPDA is no signer of the transaction, and signs in
the call of every leg. -/
theorem dispatch_built (program : VenueProgram) (amount : UInt64) {mints : UInt8} {bank : Bank}
    {state : TitanPda} (hlegs : legs.length < 2 ^ 32) (hlength : front.length = 2 * mints.toNat)
    (hledger : accounts.tokenLedger ≠ some Route.programId)
    (hstate : titanAt bank accounts.titanPda = some state)
    (hderived : derive [TitanPda.seed, [state.bump]] Route.programId = some accounts.titanPda)
    (hpayer : accounts.payer ≠ accounts.titanPda) (huser : accounts.user ≠ accounts.titanPda)
    (hfront : ∀ entry ∈ front, entry.isSigner = true → entry.pubkey ≠ accounts.titanPda) :
    dispatch rt derive program (builtInfos accounts front legs)
        (encodeSwapRouteV3Data amount mints (legs.map BuiltLeg.spec)) bank =
      ((execute rt program (builtContext accounts front legs) amount mints (specs legs) bank).map
        RouteRun.final).mapError .route ∧
    (∀ info ∈ builtInfos accounts front legs, info.key = accounts.titanPda →
      info.isSigner = false) ∧
    ∀ (earlier : List (BuiltLeg accounts.titanPda)) (leg : BuiltLeg accounts.titanPda)
        (later : List (BuiltLeg accounts.titanPda)), legs = earlier ++ leg :: later →
      Sliced (builtContext accounts front legs) leg (builtMetas accounts front legs)
        (legInvocation (builtContext accounts front legs)
          (2 * mints.toNat + (legAccounts earlier).length) leg.accounts.length) := by
  refine ⟨?_, builtInfos_titanPda hpayer huser hfront, ?_⟩
  · have hcount : (legs.map BuiltLeg.spec).length < 2 ^ 32 := by rwa [List.length_map]
    have hdecode := decodeSwapRouteV3_encode amount mints hcount
    rw [List.map_map] at hdecode
    have hspecs : legs.map (SwapSpecInputV2.onChain ∘ BuiltLeg.spec) = specs legs := rfl
    rw [dispatch_route, runSwapRouteV3, hdecode, hspecs]
    simp only [tryAccounts_built hledger hstate hderived, Except.mapError, ok_bind]
    cases execute rt program (builtContext accounts front legs) amount mints (specs legs) bank with
    | error e => rfl
    | ok run => rfl
  · rintro earlier leg later rfl
    have hlayout : RouteLayout (builtContext accounts front (earlier ++ leg :: later)) mints
        (earlier ++ leg :: later) (namedMetas accounts) front := ⟨hlength, rfl⟩
    exact (legInvocation_sliced hlayout rfl).2

open Route.Sample in
/-- The sample's legs go through the entry point in any bank where TitanPDA is open. -/
theorem dispatch_built_sample :
    ∃ opened, titanAt opened titanPda = some ⟨254⟩ ∧
      dispatch runtime canonical Route.Sample.idle
          (builtInfos Route.Sample.accounts Sample.front [Sample.there, Sample.back])
          (encodeSwapRouteV3Data 500 2 [Sample.there.spec, Sample.back.spec]) opened =
        ((execute runtime Route.Sample.idle
          (builtContext Route.Sample.accounts Sample.front [Sample.there, Sample.back]) 500 2
          (specs [Sample.there, Sample.back]) opened).map RouteRun.final).mapError .route := by
  obtain ⟨opened, _, hstate⟩ := dispatch_opens
  exact ⟨opened, hstate, (@dispatch_built runtime canonical Route.Sample.accounts Sample.front
    [Sample.there, Sample.back] Route.Sample.idle 500 2 opened ⟨254⟩ (by decide) rfl (by decide)
    hstate (by decide +kernel) (by decide) (by decide) (by decide)).1⟩

end QuayTitan.SwapRoute
