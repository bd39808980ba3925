import QuayTitan.Verification.Conservation
import QuayTitan.Verification.Route.Custody
import QuayTitan.Verification.Route.Steps

/-! # What a route touches and what it conserves

Whatever the venues do, a route reaches only the accounts it was given, and within them
lamports only move. -/

namespace QuayTitan.Route

open Fallible Relation Totals

variable {rt : Runtime} {venue : VenueProgram} {ctx : Context} {mintsCount : ℕ}
  {bank bank' : Bank} {key : Pubkey} {S : Finset Pubkey}

/-! ## The footprint -/

/-- The accounts a route can change: those of the user and the payer, the TitanPDA token
accounts of its mints, and what it hands to the venues. -/
def Context.footprint (ctx : Context) (mintsCount : ℕ) : Finset Pubkey :=
  ([ctx.accounts.payer, ctx.accounts.user, ctx.accounts.inputTokenAccount,
      ctx.accounts.outputTokenAccount] ++ (List.range mintsCount).map ctx.keyAt ++
    (ctx.remainingAccounts.drop (2 * mintsCount)).map AccountInfo.key).toFinset

theorem payer_mem_footprint : ctx.accounts.payer ∈ ctx.footprint mintsCount := by
  simp [Context.footprint]

theorem user_mem_footprint : ctx.accounts.user ∈ ctx.footprint mintsCount := by
  simp [Context.footprint]

theorem input_mem_footprint : ctx.accounts.inputTokenAccount ∈ ctx.footprint mintsCount := by
  simp [Context.footprint]

theorem output_mem_footprint : ctx.accounts.outputTokenAccount ∈ ctx.footprint mintsCount := by
  simp [Context.footprint]

theorem keyAt_mem_footprint {index : ℕ} (h : index < mintsCount) :
    ctx.keyAt index ∈ ctx.footprint mintsCount := by
  simp only [Context.footprint, List.mem_toFinset, List.mem_append, List.mem_map, List.mem_range]
  exact .inl (.inr ⟨index, h, rfl⟩)

/-- The accounts of a leg lie behind those of the mints. -/
theorem legAccount_mem_footprint {index count : ℕ} (hindex : 2 * mintsCount ≤ index)
    (h : key ∈ (legInvocation ctx index count).legAccounts.map AccountInfo.key) :
    key ∈ ctx.footprint mintsCount := by
  obtain ⟨info, hinfo, rfl⟩ := List.mem_map.mp h
  have hdrop : info ∈ ctx.remainingAccounts.drop index := List.mem_of_mem_take hinfo
  have hsplit : ctx.remainingAccounts.drop index =
      (ctx.remainingAccounts.drop (2 * mintsCount)).drop (index - 2 * mintsCount) := by
    rw [List.drop_drop, Nat.add_sub_cancel' hindex]
  rw [hsplit] at hdrop
  simp only [Context.footprint, List.mem_toFinset, List.mem_append]
  exact .inr (List.mem_map_of_mem (List.mem_of_mem_drop hdrop))

theorem tokenTransfer_frame {program source destination authority : Pubkey}
    {checked : Option (Pubkey × UInt8)} {amount : ℕ}
    (h : tokenTransfer rt program checked source destination authority amount bank = .ok bank')
    (hsource : key ≠ source) (hdestination : key ≠ destination) : bank' key = bank key := by
  obtain ⟨src, dst, fee, _, hspec⟩ := tokenTransfer_spec h
  exact hspec.frame key hsource hdestination

/-- A call changes nothing outside the footprint. -/
theorem RouteStep.frame (h : RouteStep rt venue ctx mintsCount bank bank')
    (hpos : 0 < mintsCount) (hkey : key ∉ ctx.footprint mintsCount) : bank' key = bank key := by
  have hne : ∀ {other}, other ∈ ctx.footprint mintsCount → key ≠ other := by
    rintro other hother rfl
    exact hkey hother
  cases h with
  | opensAta index index_lt program call =>
      exact createIdempotent_frame call (hne (keyAt_mem_footprint index_lt))
        (hne payer_mem_footprint)
  | opensUser account mint program account_eq call =>
      refine createIdempotent_frame call ?_ (hne payer_mem_footprint)
      rcases account_eq with rfl | rfl
      · exact hne input_mem_footprint
      · exact hne output_mem_footprint
  | wraps amount call =>
      exact (systemTransfer_spec call).frame key (hne user_mem_footprint)
        (hne input_mem_footprint)
  | syncs program call =>
      obtain ⟨token, reserve, hspec⟩ := syncNative_spec call
      exact hspec.frame key (hne input_mem_footprint)
  | deposits program checked amount call =>
      exact tokenTransfer_frame call (hne input_mem_footprint) (hne (keyAt_mem_footprint hpos))
  | unwraps program call =>
      obtain ⟨token, hspec⟩ := tokenClose_spec call
      exact hspec.frame key (hne input_mem_footprint) (hne payer_mem_footprint)
  | swaps leg amount index swap index_le call =>
      obtain ⟨instruction, out, _, _, hframe⟩ := performCpiSwap_call call
      exact hframe key fun hmem => hkey (legAccount_mem_footprint index_le hmem)
  | pays index index_lt program checked amount call =>
      exact tokenTransfer_frame call (hne (keyAt_mem_footprint index_lt))
        (hne output_mem_footprint)

theorem CloseStep.frame (h : CloseStep rt ctx mintsCount bank bank')
    (hkey : key ∉ ctx.footprint mintsCount) : bank' key = bank key := by
  obtain ⟨index, index_lt, _, program, hclose⟩ := h
  obtain ⟨token, hspec⟩ := tokenClose_spec hclose
  refine hspec.frame key ?_ ?_
  · rintro rfl
    exact hkey (keyAt_mem_footprint index_lt)
  · rintro rfl
    exact hkey payer_mem_footprint

/-! ## Lamports -/

/-- The runtime accepts a call only when the lamports of its accounts add up as before. -/
def Balanced (venue : VenueProgram) : Prop :=
  ∀ leg instruction infos bank out, venue leg instruction infos bank = .ok out →
    lamportsIn (infos.map AccountInfo.key).toFinset out =
      lamportsIn (infos.map AccountInfo.key).toFinset bank

theorem Balanced.performCpiSwap {leg amount : ℕ} {swap : SwapSpecInputV2}
    {accountMetas : List AccountMeta} {accountInfos : List AccountInfo}
    (hbalanced : Balanced venue)
    (h : performCpiSwap venue leg amount swap accountMetas accountInfos bank = .ok bank')
    (hsub : (accountInfos.map AccountInfo.key).toFinset ⊆ S) :
    lamportsIn S bank' = lamportsIn S bank := by
  obtain ⟨instruction, out, hout, hreached, hframe⟩ := performCpiSwap_call h
  refine sum_eq_of_local hsub ?_ ?_
  · refine Eq.trans (Finset.sum_congr rfl ?_) (hbalanced _ _ _ _ _ hout)
    intro key hkey
    rw [hreached key (List.mem_toFinset.mp hkey)]
  · intro key hkey
    rw [hframe key fun hmem => hkey (List.mem_toFinset.mpr hmem)]

theorem RouteStep.lamportsIn_eq (h : RouteStep rt venue ctx mintsCount bank bank')
    (hbalanced : Balanced venue) (hpos : 0 < mintsCount) (hS : ctx.footprint mintsCount ⊆ S) :
    lamportsIn S bank' = lamportsIn S bank := by
  have hinput : ctx.accounts.inputTokenAccount ∈ S := hS input_mem_footprint
  have hpayer : ctx.accounts.payer ∈ S := hS payer_mem_footprint
  have houtput : ctx.accounts.outputTokenAccount ∈ S := hS output_mem_footprint
  cases h with
  | opensAta index index_lt program call =>
      exact createIdempotent_lamportsIn call hpayer (hS (keyAt_mem_footprint index_lt))
  | opensUser account mint program account_eq call =>
      refine createIdempotent_lamportsIn call hpayer ?_
      rcases account_eq with rfl | rfl
      · exact hinput
      · exact houtput
  | wraps amount call => exact systemTransfer_lamportsIn call (hS user_mem_footprint) hinput
  | syncs program call => exact syncNative_lamportsIn call
  | deposits program checked amount call =>
      exact tokenTransfer_lamportsIn call hinput (hS (keyAt_mem_footprint hpos))
  | unwraps program call =>
      obtain ⟨token, hspec⟩ := tokenClose_spec call
      exact hspec.lamportsIn_eq hinput hpayer
  | swaps leg amount index swap index_le call =>
      refine hbalanced.performCpiSwap call ?_
      intro key hkey
      exact hS (legAccount_mem_footprint index_le (List.mem_toFinset.mp hkey))
  | pays index index_lt program checked amount call =>
      exact tokenTransfer_lamportsIn call (hS (keyAt_mem_footprint index_lt)) houtput

theorem CloseStep.lamportsIn_eq (h : CloseStep rt ctx mintsCount bank bank')
    (hS : ctx.footprint mintsCount ⊆ S) : lamportsIn S bank' = lamportsIn S bank := by
  obtain ⟨index, index_lt, _, program, hclose⟩ := h
  obtain ⟨token, hspec⟩ := tokenClose_spec hclose
  exact hspec.lamportsIn_eq (hS (keyAt_mem_footprint index_lt)) (hS payer_mem_footprint)

/-! ## Tokens -/

/-- The calls of a venue neither make nor lose tokens of a mint, and tag native accounts as the
token programs do. -/
def ConservesTokens (mint : Pubkey) (venue : VenueProgram) : Prop :=
  ∀ leg instruction infos bank out, venue leg instruction infos bank = .ok out →
    (∀ key, NativeTagged (bank key)) → (∀ key, NativeTagged (out key)) ∧
      tokensIn (infos.map AccountInfo.key).toFinset mint out =
        tokensIn (infos.map AccountInfo.key).toFinset mint bank

section Tokens

variable {mint : Pubkey}

theorem RouteStep.tagged (h : RouteStep rt venue ctx mintsCount bank bank')
    (hvenue : ConservesTokens mint venue) (htagged : ∀ key, NativeTagged (bank key))
    (key : Pubkey) : NativeTagged (bank' key) := by
  cases h with
  | opensAta index index_lt program call => exact createIdempotent_tagged call htagged key
  | opensUser account mint program account_eq call =>
      exact createIdempotent_tagged call htagged key
  | wraps amount call =>
      exact (htagged key).of_fieldsKept ((systemTransfer_spec call).contents key).fieldsKept
  | syncs program call => exact (htagged key).of_fieldsKept (syncNative_fieldsKept call key)
  | deposits program checked amount call =>
      exact (htagged key).of_fieldsKept (tokenTransfer_fieldsKept call key)
  | unwraps program call =>
      obtain ⟨token, hspec⟩ := tokenClose_spec call
      exact hspec.tagged htagged key
  | swaps leg amount index swap index_le call =>
      obtain ⟨instruction, out, hout, hreached, hframe⟩ := performCpiSwap_call call
      by_cases hkey : key ∈ ((legInvocation ctx index swap.nAccounts.toNat).legAccounts.map
          AccountInfo.key)
      · rw [hreached key hkey]
        exact (hvenue _ _ _ _ _ hout htagged).1 key
      · rw [hframe key hkey]
        exact htagged key
  | pays index index_lt program checked amount call =>
      exact (htagged key).of_fieldsKept (tokenTransfer_fieldsKept call key)

theorem RouteStep.tokensIn_eq (h : RouteStep rt venue ctx mintsCount bank bank')
    (hvenue : ConservesTokens mint venue) (hmint : NotWrapped mint)
    (hfee : ∀ amount, rt.transferFee mint amount = 0) (htagged : ∀ key, NativeTagged (bank key))
    (hpos : 0 < mintsCount) (hS : ctx.footprint mintsCount ⊆ S) :
    tokensIn S mint bank' = tokensIn S mint bank := by
  cases h with
  | opensAta index index_lt program call => exact createIdempotent_tokensIn call hmint
  | opensUser account mint program account_eq call => exact createIdempotent_tokensIn call hmint
  | wraps amount call => exact systemTransfer_tokensIn call
  | syncs program call => exact syncNative_tokensIn call hmint htagged
  | deposits program checked amount call =>
      exact tokenTransfer_tokensIn call hfee (hS input_mem_footprint)
        (hS (keyAt_mem_footprint hpos))
  | unwraps program call =>
      obtain ⟨token, hspec⟩ := tokenClose_spec call
      exact hspec.tokensIn_eq hmint htagged
  | swaps leg amount index swap index_le call =>
      obtain ⟨instruction, out, hout, hreached, hframe⟩ := performCpiSwap_call call
      refine sum_eq_of_local (T := ((legInvocation ctx index
        swap.nAccounts.toNat).legAccounts.map AccountInfo.key).toFinset) ?_ ?_ ?_
      · intro key hkey
        exact hS (legAccount_mem_footprint index_le (List.mem_toFinset.mp hkey))
      · refine Eq.trans (Finset.sum_congr rfl ?_) (hvenue _ _ _ _ _ hout htagged).2
        intro key hkey
        rw [hreached key (List.mem_toFinset.mp hkey)]
      · intro key hkey
        rw [hframe key fun hmem => hkey (List.mem_toFinset.mpr hmem)]
  | pays index index_lt program checked amount call =>
      exact tokenTransfer_tokensIn call hfee (hS (keyAt_mem_footprint index_lt))
        (hS output_mem_footprint)

end Tokens

/-! ## Whole executions -/

section Run

variable {amount : UInt64} {mints : UInt8} {swaps : List SwapSpecInputV2} {run : RouteRun}

/-- The accounts a route does not hold are as they were, and lamports only moved between those
it holds when the venues only move them. -/
theorem execute_conservesLamports
    (h : execute rt venue ctx amount mints swaps bank = .ok run) :
    (∀ key ∉ ctx.footprint mints.toNat, run.final key = bank key) ∧
      (Balanced venue →
        ∀ S, ctx.footprint mints.toNat ⊆ S → lamportsIn S run.final = lamportsIn S bank) := by
  have hexecutes := execute_eq_ok.mp h
  obtain ⟨_, _, hprepares⟩ := prepare_spec hexecutes.prepares
  have hpos : 0 < mints.toNat := by
    have hmints := hprepares.shaped.one_lt_mints
    omega
  obtain ⟨hsteps, hcloses⟩ := hexecutes.steps
  constructor
  · intro key hkey
    have hpaid := reflTransGen_keeps (fun b => b key = bank key)
      (fun a b hstep ha => (hstep.frame hpos hkey).trans ha) hsteps rfl
    exact reflTransGen_keeps (fun b => b key = bank key)
      (fun a b hstep ha => (hstep.frame hkey).trans ha) hcloses hpaid
  · intro hbalanced S hS
    have hpaid := reflTransGen_keeps (fun b => lamportsIn S b = lamportsIn S bank)
      (fun a b hstep ha => (hstep.lamportsIn_eq hbalanced hpos hS).trans ha) hsteps rfl
    exact reflTransGen_keeps (fun b => lamportsIn S b = lamportsIn S bank)
      (fun a b hstep ha => (hstep.lamportsIn_eq hS).trans ha) hcloses hpaid

/-- Tokens of a mint that charges no transfer fee and wraps no SOL only moved as well. -/
theorem execute_conservesTokens {mint : Pubkey}
    (h : execute rt venue ctx amount mints swaps bank = .ok run)
    (hvenue : ConservesTokens mint venue) (hmint : NotWrapped mint)
    (hfee : ∀ amount, rt.transferFee mint amount = 0) (htagged : ∀ key, NativeTagged (bank key)) :
    (∀ key, NativeTagged (run.final key)) ∧
      ∀ S, ctx.footprint mints.toNat ⊆ S →
        tokensIn S mint run.final = tokensIn S mint bank := by
  have hexecutes := execute_eq_ok.mp h
  obtain ⟨_, _, hprepares⟩ := prepare_spec hexecutes.prepares
  have hpos : 0 < mints.toNat := by
    have hmints := hprepares.shaped.one_lt_mints
    omega
  obtain ⟨hsteps, hcloses⟩ := hexecutes.steps
  have hpaid := reflTransGen_keeps
    (fun b => (∀ key, NativeTagged (b key)) ∧ ∀ S, ctx.footprint mints.toNat ⊆ S →
      tokensIn S mint b = tokensIn S mint bank)
    (fun a b hstep ha => ⟨hstep.tagged hvenue ha.1, fun S hS =>
      (hstep.tokensIn_eq hvenue hmint hfee ha.1 hpos hS).trans (ha.2 S hS)⟩)
    hsteps ⟨htagged, fun _ _ => rfl⟩
  refine reflTransGen_keeps
    (fun b => (∀ key, NativeTagged (b key)) ∧ ∀ S, ctx.footprint mints.toNat ⊆ S →
      tokensIn S mint b = tokensIn S mint bank) ?_ hcloses hpaid
  intro a b hstep ha
  obtain ⟨index, _, _, program, hclose⟩ := hstep
  obtain ⟨token, hspec⟩ := tokenClose_spec hclose
  exact ⟨hspec.tagged ha.1, fun S hS => (hspec.tokensIn_eq hmint ha.1).trans (ha.2 S hS)⟩

end Run

namespace Sample

/-- A venue that takes its input and gives nothing back. -/
def idle : VenueProgram := fun _ _ _ bank => .ok bank

theorem idle_bank {leg : ℕ} {instruction : Instruction} {infos : List AccountInfo}
    {before out : Bank} (h : idle leg instruction infos before = .ok out) : out = before :=
  (Except.ok.inj h).symm

theorem execute_idle : ∃ run, execute runtime idle context 500 2 swaps Sample.bank = .ok run :=
  exists_of_isOk (by decide +kernel)

theorem execute_conservesLamports_sample :
    ∃ run, execute runtime idle context 500 2 swaps Sample.bank = .ok run ∧
      lamportsIn (context.footprint 2) run.final =
        lamportsIn (context.footprint 2) Sample.bank := by
  obtain ⟨run, hrun⟩ := execute_idle
  have hbalanced : Balanced idle := by
    intro _ _ _ _ _ hout
    rw [idle_bank hout]
  exact ⟨run, hrun, (execute_conservesLamports hrun).2 hbalanced _ subset_rfl⟩

theorem bankOf_forall {P : Account → Prop} {accounts : List (Pubkey × Account)}
    (habsent : P .absent) (h : ∀ entry ∈ accounts, P entry.2) (key : Pubkey) :
    P (bankOf accounts key) := by
  unfold bankOf
  cases hlookup : accounts.lookup key with
  | none => exact habsent
  | some account =>
      obtain ⟨front, back, hsplit, _⟩ := List.lookup_eq_some_iff.mp hlookup
      exact h (key, account) (by simp [hsplit])

/-- Every account is absent, a mint, a holding or the payer. -/
theorem bank_forall {P : Account → Prop} (habsent : P .absent) (hmint : P mintAccount)
    (hholding : ∀ mint wallet amount, P (holding mint wallet amount))
    (hpayer : P ⟨1000000, [], systemProgramId⟩) (key : Pubkey) : P (Sample.bank key) := by
  unfold Sample.bank bankWith
  by_cases hquote : key = quoteAta
  · rw [hquote, Function.update_self]
    exact hholding _ _ _
  · rw [Function.update_of_ne hquote]
    by_cases hbase : key = baseAta
    · rw [hbase, Function.update_self]
      exact hholding _ _ _
    · rw [Function.update_of_ne hbase]
      apply bankOf_forall habsent
      simp only [List.mem_cons, List.not_mem_nil, or_false, forall_eq_or_imp, forall_eq]
      exact ⟨hmint, hmint, hholding _ _ _, hholding _ _ _, hpayer⟩

theorem bank_tagged (key : Pubkey) : NativeTagged (Sample.bank key) := by
  apply bank_forall
  · exact nativeTagged_of_data_nil rfl
  · exact fun _ hlength => absurd hlength (by decide)
  · exact fun _ _ _ _ _ htag => absurd htag newTokenData_untagged
  · exact nativeTagged_of_data_nil rfl

theorem execute_conservesTokens_sample :
    ∃ run, execute runtime idle context 500 2 swaps Sample.bank = .ok run ∧
      tokensIn (context.footprint 2) baseMint run.final =
        tokensIn (context.footprint 2) baseMint Sample.bank := by
  obtain ⟨run, hrun⟩ := execute_idle
  have hvenue : ConservesTokens baseMint idle := by
    intro _ _ _ _ _ hout htagged
    rw [idle_bank hout]
    exact ⟨htagged, rfl⟩
  have hmint : NotWrapped baseMint := ⟨by decide +kernel, by decide +kernel⟩
  exact ⟨run, hrun,
    (execute_conservesTokens hrun hvenue hmint (fun _ => rfl) bank_tagged).2 _ subset_rfl⟩

end Sample

end QuayTitan.Route
