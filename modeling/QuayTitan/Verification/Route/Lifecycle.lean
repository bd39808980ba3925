import QuayTitan.Verification.Route.Progress
import QuayTitan.Verification.Route.Opening
import QuayTitan.Verification.Route.Custody

/-! # Lifecycle of the token accounts of a route

Accounts are opened by one loop and closed by another, which know of each other through the
bits of the slots. -/

namespace QuayTitan.Route

open ByteFields Fallible

variable {rt : Runtime} {ctx : Context} {mintsCount i : ℕ} {bank paid : Bank}
  {createdAtas : BitVec 16}

/-! ## Opening -/

/-- The state of the opening loop before its `i`-th slot: the accounts that existed are as they
were, and each address opened so far has a bit. -/
structure Created (ctx : Context) (bank : Bank) (i : ℕ) (st : Opened) : Prop where
  kept : ∀ key, accountExists (bank key) = true → st.bank key = bank key
  ahead : ∀ key, (∀ j < i, ctx.keyAt j ≠ key) → accountExists (bank key) = false →
    accountExists (st.bank key) = false
  missing : ∀ j, st.createdAtas.getLsbD j = true →
    j < i ∧ accountExists (bank (ctx.keyAt j)) = false
  marked : ∀ j < i, accountExists (bank (ctx.keyAt j)) = false →
    ∃ k, ctx.keyAt k = ctx.keyAt j ∧ st.createdAtas.getLsbD k = true

/-- An address that is not the one opened still lacks an account. -/
theorem createIdempotent_missing {payer wallet mint account program key : Pubkey} {bank' : Bank}
    (h : createIdempotent rt payer wallet mint account program bank = .ok bank')
    (hkey : key ≠ account) (hmissing : accountExists (bank key) = false) :
    accountExists (bank' key) = false := by
  by_cases hdata : (bank key).data = []
  · have hsame : SameContents (bank key) (bank' key) := by
      cases createIdempotent_spec h with
      | existing token unpacks owner_eq mint_eq same => exact same ▸ SameContents.refl _
      | fresh opens => exact opens.contents key hkey
    simp [accountExists, hsame.data_eq, hdata]
  · rwa [createIdempotent_keeps h hdata]

theorem Created.step (hi : i < 16) {st st' : Opened} (hst : Created ctx bank i st)
    (h : createMissingAta rt ctx mintsCount st i = .ok st') : Created ctx bank (i + 1) st' := by
  rcases createMissingAta_cases h with ⟨hexists, rfl⟩ | ⟨hmissing, bank', hcreate, rfl⟩
  · refine ⟨hst.kept, fun key hkey => hst.ahead key fun j hj => hkey j (by omega), ?_, ?_⟩
    · intro j hj
      obtain ⟨hlt, hbank⟩ := hst.missing j hj
      exact ⟨by omega, hbank⟩
    · intro j hj hbank
      rcases Nat.lt_succ_iff_lt_or_eq.mp hj with hj | rfl
      · exact hst.marked j hj hbank
      · -- An earlier slot opened the account.
        obtain ⟨k, hk, hkey⟩ : ∃ k < j, ctx.keyAt k = ctx.keyAt j := by
          by_contra hnone
          push Not at hnone
          rw [hst.ahead _ hnone hbank] at hexists
          cases hexists
        rw [← hkey] at hbank ⊢
        exact hst.marked k hk hbank
  · have hbank : accountExists (bank (ctx.keyAt i)) = false := by
      by_contra hexists
      rw [Bool.not_eq_false] at hexists
      rw [hst.kept _ hexists, hexists] at hmissing
      cases hmissing
    refine ⟨fun key hexists => ?_, fun key hkey hkeyMissing => ?_, fun j hj => ?_,
      fun j hj hjMissing => ?_⟩
    · rw [← hst.kept key hexists]
      apply createIdempotent_keeps hcreate
      rw [hst.kept key hexists]
      exact data_ne_nil_of_exists hexists
    · apply createIdempotent_missing hcreate (hkey i (by omega)).symm
      exact hst.ahead key (fun j hj => hkey j (by omega)) hkeyMissing
    · rw [getLsbD_or_bit _ hi, Bool.or_eq_true, decide_eq_true_eq] at hj
      rcases hj with hj | rfl
      · obtain ⟨hlt, hjBank⟩ := hst.missing j hj
        exact ⟨by omega, hjBank⟩
      · exact ⟨by omega, hbank⟩
    · rcases Nat.lt_succ_iff_lt_or_eq.mp hj with hj | rfl
      · obtain ⟨k, hkey, hk⟩ := hst.marked j hj hjMissing
        exact ⟨k, hkey, by rw [getLsbD_or_bit _ hi, hk, Bool.true_or]⟩
      · exact ⟨j, rfl, by simp [getLsbD_or_bit _ hi]⟩

theorem createMissingAtas_created {opened : Opened} (hcount : mintsCount ≤ maxMints)
    (h : createMissingAtas rt ctx mintsCount bank = .ok opened) :
    Created ctx bank mintsCount opened := by
  have hmax : maxMints = 12 := rfl
  refine foldlM_range_invariant (Created ctx bank)
    (fun i hi st st' hst hstep => hst.step (by omega) hstep) ?_ h
  exact ⟨fun _ _ => rfl, fun _ _ hmissing => hmissing, fun j hj => by simp at hj,
    fun j hj => absurd hj (Nat.not_lt_zero j)⟩

/-! ## Closing -/

/-- The state of the close loop before its `i`-th slot. -/
structure Closes (ctx : Context) (createdAtas : BitVec 16) (paid : Bank) (i : ℕ) (st : Closing) :
    Prop where
  closed_bit : ∀ j ∈ st.closed, createdAtas.getLsbD j = true
  closed_absent : ∀ j ∈ st.closed, st.bank (ctx.keyAt j) = .absent
  closed_ne : ∀ j ∈ st.closed, ctx.keyAt j ≠ ctx.accounts.payer
  once : (st.closed.map ctx.keyAt).Nodup
  contents : ∀ key, (∀ j ∈ st.closed, ctx.keyAt j ≠ key) → SameContents (paid key) (st.bank key)
  frame : ∀ key, (∀ j ∈ st.closed, ctx.keyAt j ≠ key) → key ≠ ctx.accounts.payer →
    st.bank key = paid key
  refunded : (st.bank ctx.accounts.payer).lamports = (paid ctx.accounts.payer).lamports +
    (st.closed.map fun j => (paid (ctx.keyAt j)).lamports).sum
  settled : ∀ j < i, createdAtas.getLsbD j = true →
    (∃ k ∈ st.closed, ctx.keyAt k = ctx.keyAt j) ∨ 0 < tokenAmount (paid (ctx.keyAt j))

/-- A slot that is about to be closed was not closed before, under any alias. -/
theorem Closes.fresh {st : Closing} {program destination : Pubkey} {token : TokenAccount}
    {bank' : Bank} (hst : Closes ctx createdAtas paid i st)
    (hspec : CloseSpec program (ctx.keyAt i) destination token st.bank bank') :
    ∀ j ∈ st.closed, ctx.keyAt j ≠ ctx.keyAt i := by
  intro j hj heq
  have hlen := hspec.unpacks.accountLen_le
  rw [← heq, hst.closed_absent j hj] at hlen
  exact absurd hlen (by decide)

theorem Closes.skip {st : Closing} (hst : Closes ctx createdAtas paid i st) (hi : i < 16)
    (h : createdAtas &&& (1#16 <<< i) = 0 ∨ 0 < tokenAmount (st.bank (ctx.keyAt i))) :
    Closes ctx createdAtas paid (i + 1) st := by
  refine { hst with settled := fun j hj hbit => ?_ }
  rcases Nat.lt_succ_iff_lt_or_eq.mp hj with hj | rfl
  · exact hst.settled j hj hbit
  · rcases h with hzero | hamount
    · rw [and_bit_eq_zero _ hi, hbit] at hzero
      cases hzero
    · by_cases hclosed : ∃ k ∈ st.closed, ctx.keyAt k = ctx.keyAt j
      · exact .inl hclosed
      · right
        push Not at hclosed
        rwa [tokenAmount_of_sameContents (hst.contents _ hclosed)] at hamount

theorem Closes.close {st st' : Closing} {program : Pubkey} {token : TokenAccount}
    (hst : Closes ctx createdAtas paid i st) (hi : i < 16)
    (hbit : createdAtas &&& (1#16 <<< i) ≠ 0) (hclosed : st'.closed = st.closed ++ [i])
    (hspec : CloseSpec program (ctx.keyAt i) ctx.accounts.payer token st.bank st'.bank) :
    Closes ctx createdAtas paid (i + 1) st' := by
  have hfresh := hst.fresh hspec
  have hold {key : Pubkey} (hkey : ∀ j ∈ st'.closed, ctx.keyAt j ≠ key) :
      (∀ j ∈ st.closed, ctx.keyAt j ≠ key) ∧ key ≠ ctx.keyAt i :=
    ⟨fun j hj => hkey j (by simp [hclosed, hj]), fun heq => hkey i (by simp [hclosed]) heq.symm⟩
  refine ⟨fun j hj => ?bit, fun j hj => ?absent, fun j hj => ?ne, ?once, fun key hkey => ?contents,
    fun key hkey hpayer => ?frame, ?refunded, fun j hj hjBit => ?settled⟩
  case bit =>
    rw [hclosed, List.mem_append, List.mem_singleton] at hj
    rcases hj with hj | rfl
    · exact hst.closed_bit j hj
    · rwa [Ne, and_bit_eq_zero _ hi, Bool.not_eq_false] at hbit
  case absent =>
    rw [hclosed, List.mem_append, List.mem_singleton] at hj
    rcases hj with hj | rfl
    · rw [hspec.frame _ (hfresh j hj) (hst.closed_ne j hj)]
      exact hst.closed_absent j hj
    · exact hspec.closed
  case ne =>
    rw [hclosed, List.mem_append, List.mem_singleton] at hj
    rcases hj with hj | rfl
    · exact hst.closed_ne j hj
    · exact hspec.ne_destination
  case once =>
    rw [hclosed, List.map_append, List.map_singleton]
    apply List.nodup_append.mpr
    refine ⟨hst.once, List.nodup_singleton _, fun key hkey other hother => ?_⟩
    obtain ⟨j, hj, rfl⟩ := List.mem_map.mp hkey
    rw [List.mem_singleton.mp hother]
    exact hfresh j hj
  case contents =>
    obtain ⟨hkept, hne⟩ := hold hkey
    exact (hst.contents key hkept).trans (hspec.contents key hne)
  case frame =>
    obtain ⟨hkept, hne⟩ := hold hkey
    rw [hspec.frame key hne hpayer, hst.frame key hkept hpayer]
  case refunded =>
    have hata := hst.frame _ hfresh hspec.ne_destination
    rw [hspec.refund, hst.refunded, hata, hclosed, List.map_append, List.sum_append]
    simp
    omega
  case settled =>
    rcases Nat.lt_succ_iff_lt_or_eq.mp hj with hj | rfl
    · refine (hst.settled j hj hjBit).imp (fun ⟨k, hk, hkey⟩ => ⟨k, ?_, hkey⟩) id
      simp [hclosed, hk]
    · exact .inl ⟨j, by simp [hclosed], rfl⟩

theorem Closes.step {st st' : Closing} (hst : Closes ctx createdAtas paid i st) (hi : i < 16)
    (h : closeCreatedAta rt ctx mintsCount createdAtas st i = .ok st') :
    Closes ctx createdAtas paid (i + 1) st' := by
  cases closeCreatedAta_cases h with
  | skipped same reason => exact same ▸ hst.skip hi reason
  | closes bit _ closed_eq program token spec => exact hst.close hi bit closed_eq spec

theorem closeCreatedAtas_closes {closing : Closing} (hcount : mintsCount ≤ maxMints)
    (h : closeCreatedAtas rt ctx mintsCount createdAtas paid = .ok closing) :
    Closes ctx createdAtas paid mintsCount closing := by
  have hmax : maxMints = 12 := rfl
  refine foldlM_range_invariant (Closes ctx createdAtas paid)
    (fun i hi st st' hst hstep => hst.step (by omega) hstep) ?_ h
  exact ⟨nofun, nofun, nofun, List.nodup_nil, fun _ _ => SameContents.refl _, fun _ _ _ => rfl,
    rfl, fun j hj => absurd hj (Nat.not_lt_zero j)⟩

/-! ## Between the two loops -/

/-- A deposit closes no account that exists: only one it opened itself. -/
theorem deposit_data_ne_nil {inputMint key : Pubkey} {inputDecimals : UInt8}
    {ledgerAmount : Option ℕ} {effectiveAmount : ℕ} {bank' : Bank}
    (h : deposit rt ctx inputMint inputDecimals ledgerAmount effectiveAmount bank = .ok bank')
    (hexists : accountExists (bank key) = true) : (bank' key).data ≠ [] := by
  obtain ⟨first, created, mid, moved, hphases⟩ := deposit_spec h
  have hdata := data_ne_nil_of_exists hexists
  obtain ⟨hcreated, hmid⟩ : (created = true → key ≠ ctx.accounts.inputTokenAccount) ∧
      (mid key).data ≠ [] := by
    rcases fundInputAccount_cases hphases.funds with ⟨rfl, rfl⟩ | hsetup
    · exact ⟨fun hcreated => absurd hcreated Bool.false_ne_true, hdata⟩
    · refine ⟨?_, setupWsolInputAccount_data_ne_nil hsetup hdata⟩
      have hflag := setupWsolInputAccount_created hsetup
      rintro hcreated rfl
      simp [hexists, hcreated] at hflag
  have hmoved := transferTokens_data_ne_nil hphases.moves hmid
  cases created with
  | false =>
      rw [hphases.kept rfl]
      exact hmoved
  | true =>
      obtain ⟨token, hspec⟩ := hphases.closes rfl
      rw [(hspec.contents key (hcreated rfl)).data_eq]
      exact hmoved

/-- The legs themselves neither open nor close a token account of the route. -/
def LegsKeepAtas (ctx : Context) (mintsCount : ℕ) (legs : List LegRecord) : Prop :=
  ∀ record ∈ legs, ∀ j < mintsCount,
    (record.before (ctx.keyAt j)).data = [] ↔ (record.after (ctx.keyAt j)).data = []

/-- An account of the route that is open when the legs start stays so. -/
theorem runLegs_data_ne_nil {venue : VenueProgram} {reservedBalances : List ℕ}
    {swaps : List SwapSpecInputV2} {leg : ℕ} {st st' : LegState} (hi : i < mintsCount)
    (hdata : (st.bank (ctx.keyAt i)).data ≠ [])
    (hafter : ∀ record ∈ st.legs, (record.after (ctx.keyAt i)).data ≠ [])
    (hlegs : LegsKeepAtas ctx mintsCount st'.legs)
    (h : runLegs venue ctx reservedBalances swaps leg st = .ok st') :
    (st'.bank (ctx.keyAt i)).data ≠ [] ∧
      ∀ record ∈ st'.legs, (record.after (ctx.keyAt i)).data ≠ [] := by
  apply runLegs_invariant (fun s => (s.bank (ctx.keyAt i)).data ≠ [] ∧
    ∀ record ∈ s.legs, (record.after (ctx.keyAt i)).data ≠ []) _ ⟨hdata, hafter⟩ h
  intro swap _ leg s s' record hspec hrecord ⟨hbank, hbefore⟩
  have hkept : (record.after (ctx.keyAt i)).data ≠ [] := by
    rw [Ne, ← hlegs record hrecord i hi, hspec.before_eq]
    exact hbank
  refine ⟨by rwa [← hspec.after_eq], fun other hother => ?_⟩
  rw [hspec.legs_eq, List.mem_append, List.mem_singleton] at hother
  rcases hother with hother | rfl
  · exact hbefore other hother
  · exact hkept

instance (legs : List LegRecord) : Decidable (LegsKeepAtas ctx mintsCount legs) :=
  inferInstanceAs (Decidable (∀ record ∈ legs, ∀ j < mintsCount,
    (record.before (ctx.keyAt j)).data = [] ↔ (record.after (ctx.keyAt j)).data = []))

/-! ## A whole execution -/

/-- The states of the chain that an execution passes between its opening and its close loop. -/
def RouteRun.stages (run : RouteRun) : List Bank :=
  [run.opened.bank, run.deposited] ++ run.traded.legs.map LegRecord.after ++
    [run.payout.ready, run.payout.paid]

/-- What becomes of the token accounts of a route. -/
structure Lifecycle (ctx : Context) (mintsCount : ℕ) (bank : Bank) (run : RouteRun) : Prop where
  existing : ∀ j < mintsCount, accountExists (bank (ctx.keyAt j)) = true →
    (∀ k ∈ run.closing.closed, ctx.keyAt k ≠ ctx.keyAt j) ∧
      ∀ stage ∈ run.stages ++ [run.final], (stage (ctx.keyAt j)).data ≠ []
  created : ∀ j < mintsCount, accountExists (bank (ctx.keyAt j)) = false →
    (run.final (ctx.keyAt j) = .absent ∧ ∃ k ∈ run.closing.closed, ctx.keyAt k = ctx.keyAt j) ∨
      0 < tokenAmount (run.final (ctx.keyAt j))
  refunded : (run.final ctx.accounts.payer).lamports =
    (run.payout.paid ctx.accounts.payer).lamports +
      (run.closing.closed.map fun k => (run.payout.paid (ctx.keyAt k)).lamports).sum
  closed_once : (run.closing.closed.map ctx.keyAt).Nodup
  open_until_closed : ∀ j < mintsCount, accountExists (run.opened.bank (ctx.keyAt j)) = true →
    ∀ stage ∈ run.stages, (stage (ctx.keyAt j)).data ≠ []

section Run

variable {venue : VenueProgram} {amount : UInt64} {mints : UInt8} {swaps : List SwapSpecInputV2}
  {run : RouteRun}

theorem Executes.stages_data_ne_nil (h : Executes rt venue ctx amount mints swaps bank run)
    (hlegs : LegsKeepAtas ctx mints.toNat run.traded.legs) (hi : i < mints.toNat)
    (hexists : accountExists (run.opened.bank (ctx.keyAt i)) = true) :
    ∀ stage ∈ run.stages, (stage (ctx.keyAt i)).data ≠ [] := by
  obtain ⟨inputMint, inputDecimals, hprepares⟩ := prepare_spec h.prepares
  have hdeposited := deposit_data_ne_nil hprepares.deposits hexists
  obtain ⟨htraded, hafter⟩ := runLegs_data_ne_nil hi hdeposited (by simp) hlegs h.trades
  obtain ⟨outputAta, reserved, hpayout⟩ := payOut_spec h.pays
  have hready : (run.payout.ready (ctx.keyAt i)).data ≠ [] := by
    rw [(hpayout.ready _ htraded).data_eq]
    exact htraded
  have hpaid := transferTokens_data_ne_nil hpayout.pays hready
  intro stage hstage
  simp only [RouteRun.stages, List.mem_append, List.mem_cons, List.mem_map, List.not_mem_nil,
    or_false] at hstage
  rcases hstage with ((rfl | rfl) | ⟨record, hrecord, rfl⟩) | rfl | rfl
  · exact data_ne_nil_of_exists hexists
  · exact hdeposited
  · exact hafter record hrecord
  · exact hready
  · exact hpaid

/-- A route closes no account that existed and leaves none of those it opened behind empty. -/
theorem execute_lifecycle (h : execute rt venue ctx amount mints swaps bank = .ok run)
    (hlegs : LegsKeepAtas ctx mints.toNat run.traded.legs) :
    Lifecycle ctx mints.toNat bank run := by
  have hexecutes := execute_eq_ok.mp h
  obtain ⟨inputMint, inputDecimals, hprepares⟩ := prepare_spec hexecutes.prepares
  have hcreated := createMissingAtas_created hprepares.shaped.mints_le hprepares.opens
  have hcloses := closeCreatedAtas_closes hprepares.shaped.mints_le hexecutes.closes
  have hstages := fun j (hj : j < mints.toNat) => hexecutes.stages_data_ne_nil hlegs hj
  refine ⟨fun j hj hexists => ?_, fun j hj hmissing => ?_, hcloses.refunded, hcloses.once, hstages⟩
  · have hopened : accountExists (run.opened.bank (ctx.keyAt j)) = true := by
      rw [hcreated.kept _ hexists]
      exact hexists
    have hunclosed : ∀ k ∈ run.closing.closed, ctx.keyAt k ≠ ctx.keyAt j := by
      intro k hk heq
      have hbank := (hcreated.missing k (hcloses.closed_bit k hk)).2
      rw [heq, hexists] at hbank
      cases hbank
    refine ⟨hunclosed, fun stage hstage => ?_⟩
    rcases List.mem_append.mp hstage with hstage | hfinal
    · exact hstages j hj hopened stage hstage
    · rw [List.mem_singleton.mp hfinal, RouteRun.final, (hcloses.contents _ hunclosed).data_eq]
      exact hstages j hj hopened _ (by simp [RouteRun.stages])
  · obtain ⟨k, hkey, hbit⟩ := hcreated.marked j hj hmissing
    have hk := (hcreated.missing k hbit).1
    rw [← hkey]
    rcases hcloses.settled k hk hbit with ⟨l, hl, hsame⟩ | hpos
    · refine .inl ⟨?_, l, hl, hsame⟩
      rw [← hsame]
      exact hcloses.closed_absent l hl
    · right
      rwa [RouteRun.final, tokenAmount_closeCreatedAtas hexecutes.closes]

end Run

namespace Sample

/-- No account of TitanPDA exists. -/
def unopened : Bank := bankWith .absent .absent

/-- Both accounts of the route are opened, and closed again. -/
theorem execute_lifecycle_sample :
    ∃ run, execute runtime doubler context 500 2 swaps unopened = .ok run ∧
      run.closing.closed = [0, 1] ∧ Lifecycle context 2 unopened run := by
  have hrun : (execute runtime doubler context 500 2 swaps unopened).toOption.map (fun run =>
      decide (LegsKeepAtas context 2 run.traded.legs) && decide (run.closing.closed = [0, 1])) =
        some true := by decide +kernel
  obtain ⟨run, hok, hchecks⟩ := exists_of_toOption_map hrun
  rw [Bool.and_eq_true, decide_eq_true_eq, decide_eq_true_eq] at hchecks
  exact ⟨run, hok, hchecks.2, execute_lifecycle hok hchecks.1⟩

end Sample

end QuayTitan.Route
