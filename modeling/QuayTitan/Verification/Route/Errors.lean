import QuayTitan.Verification.Route.Phases

/-! # How an execution can fail

Up to the final check only inputs and calls are refused; no array access is ever out of
range. -/

namespace QuayTitan.Route

open ByteFields Fallible

variable {rt : Runtime}

/-! ## Ordinary failures -/

/-- The errors of checked inputs and failed calls: neither a broken reserve nor an array
access out of range. -/
@[simp] def RouteError.ordinary : RouteError → Bool
  | .template .invalidSwapInput => true
  | .template .missingRemainingAccount => true
  | .template .invalidAccountData => true
  | .template .reservedBalanceViolation => false
  | .program _ => true
  | .indexOutOfBounds => false

def Ordinary {α : Type} (result : Except RouteError α) : Prop :=
  ∀ error, result = .error error → error.ordinary = true

@[simp] theorem ordinary_pure {α : Type} (a : α) : Ordinary (pure a) :=
  fun _ h => (pure_ne_error h).elim

@[simp] theorem ordinary_bind {α β : Type} (x : Except RouteError α)
    (f : α → Except RouteError β) :
    Ordinary (x >>= f) ↔ Ordinary x ∧ ∀ a, x = .ok a → Ordinary (f a) := by
  cases x with
  | error e => simp [Ordinary]
  | ok a => simp [Ordinary]

@[simp] theorem ordinary_map {α β : Type} (f : α → β) (x : Except RouteError α) :
    Ordinary (f <$> x) ↔ Ordinary x := by
  cases x <;> simp [Ordinary, Functor.map, Except.map]

@[simp] theorem ordinary_require (condition : Prop) [Decidable condition]
    (error : TemplateError) : Ordinary (require condition error) ↔
      condition ∨ (RouteError.template error).ordinary = true := by
  by_cases h : condition <;> simp [Ordinary, require, check, h]

@[simp] theorem ordinary_invoke {α : Type} (result : Except ProgramError α) :
    Ordinary (invoke result) := by
  cases result <;> simp [Ordinary, invoke, Except.mapError]

@[simp] theorem ordinary_okOr {α : Type} (value : Option α) (error : RouteError) :
    Ordinary (okOr value error) ↔ value.isSome = true ∨ error.ordinary = true := by
  cases value <;> simp [Ordinary, okOr]

@[simp] theorem ordinary_get (ctx : Context) (index : ℕ) : Ordinary (ctx.get index) :=
  (ordinary_okOr _ _).mpr (.inr rfl)

@[simp] theorem ordinary_extractTokenAmount (account : Account) :
    Ordinary (extractTokenAmount account) :=
  (ordinary_okOr _ _).mpr (.inr rfl)

@[simp] theorem ordinary_extractMintDecimals (mint : Account) :
    Ordinary (extractMintDecimals mint) :=
  (ordinary_okOr _ _).mpr (.inr rfl)

theorem ordinary_ite {α : Type} {condition : Prop} [Decidable condition]
    {x y : Except RouteError α} (hx : condition → Ordinary x) (hy : ¬condition → Ordinary y) :
    Ordinary (if condition then x else y) := by
  split
  · exact hx ‹_›
  · exact hy ‹_›

theorem ordinary_foldlM {α σ : Type} {f : σ → α → Except RouteError σ} {l : List α} (s : σ)
    (h : ∀ s a, Ordinary (f s a)) : Ordinary (l.foldlM f s) :=
  fun error herror => by_contra fun hordinary =>
    foldlM_ne_error (fun _ => True) (fun _ _ _ _ _ _ => trivial)
      (fun a _ s _ hstep => hordinary (h s a error hstep)) trivial herror

theorem ordinary_checkShape (ctx : Context) (mints : UInt8) (swaps : List SwapSpecInputV2) :
    Ordinary (checkShape ctx mints swaps) := by
  simp only [checkShape, ordinary_bind, ordinary_require, RouteError.ordinary, or_true,
    ordinary_okOr, true_and, require_eq_ok, implies_true, and_true]
  rintro _ ⟨_, hne⟩ _ _ _ _ _ _
  refine .inl ?_
  rw [List.isSome_head?]
  simpa using hne

theorem ordinary_readTokenLedger (ctx : Context) (bank : Bank) :
    Ordinary (readTokenLedger ctx bank) := by
  unfold readTokenLedger
  cases ctx.accounts.tokenLedger with
  | none => simp
  | some ledger => simp

theorem ordinary_readEffectiveAmount (ctx : Context) (ledgerAmount : Option ℕ) (amount : ℕ)
    (bank : Bank) : Ordinary (readEffectiveAmount ctx ledgerAmount amount bank) := by
  unfold readEffectiveAmount
  cases ledgerAmount with
  | none => simp
  | some stored => simp

theorem ordinary_createMissingAtas (ctx : Context) (mintsCount : ℕ) (bank : Bank) :
    Ordinary (createMissingAtas rt ctx mintsCount bank) := by
  refine ordinary_foldlM _ fun st i => ?_
  simp only [createMissingAta, ordinary_bind, ordinary_get, true_and]
  exact fun ata _ => ordinary_ite (fun _ => by simp) fun _ => by simp

theorem ordinary_takeSnapshot (titanPda : Pubkey) (mintsCount : ℕ) (bank : Bank)
    (infos : List AccountInfo) (i : ℕ) (st : Snapshot) :
    Ordinary (takeSnapshot titanPda mintsCount bank infos i st) := by
  induction infos generalizing i st with
  | nil => simp [takeSnapshot]
  | cons info rest ih =>
      simp only [takeSnapshot, ordinary_bind]
      refine ⟨?_, fun mid _ => ih _ _⟩
      simp only [snapshotAccount]
      exact ordinary_ite (fun _ => by simp) fun _ => ordinary_ite (fun _ => by simp)
        fun _ => by simp

theorem ordinary_transferTokens (tokenProgram source destination authority : Pubkey)
    (mint : Option Pubkey) (amount : ℕ) (decimals : UInt8) (bank : Bank) :
    Ordinary (transferTokens rt tokenProgram source destination authority mint amount decimals
      bank) :=
  ordinary_ite (fun _ => by simp) fun _ => ordinary_ite (fun _ => by simp) fun _ => by simp

theorem ordinary_transferSolAndSync (source wsolAta tokenProgram : Pubkey) (amount : ℕ)
    (bank : Bank) : Ordinary (transferSolAndSync source wsolAta tokenProgram amount bank) :=
  ordinary_ite (fun _ => by simp) fun _ => by simp

theorem ordinary_deposit (ctx : Context) (inputMint : Pubkey) (inputDecimals : UInt8)
    (ledgerAmount : Option ℕ) (effectiveAmount : ℕ) (bank : Bank) :
    Ordinary (deposit rt ctx inputMint inputDecimals ledgerAmount effectiveAmount bank) := by
  simp only [deposit, ordinary_bind, ordinary_get, true_and]
  refine fun _ _ => ⟨?_, fun funded _ =>
    ⟨ordinary_transferTokens _ _ _ _ _ _ _ _, fun _ _ => ?_⟩⟩
  · refine ordinary_ite (fun _ => ?_) fun _ => by simp
    refine ordinary_ite (fun _ => ?_) fun _ => ?_
    · simp only [ordinary_bind, ordinary_extractTokenAmount, true_and]
      refine fun _ _ => ordinary_ite (fun _ => ?_) fun _ => by simp
      simp [ordinary_transferSolAndSync]
    · simp [ordinary_transferSolAndSync]
  · exact ordinary_ite (fun _ => by simp) fun _ => by simp

theorem ordinary_prepare (ctx : Context) (amount : UInt64) (mints : UInt8)
    (swaps : List SwapSpecInputV2) (bank : Bank) :
    Ordinary (prepare rt ctx amount mints swaps bank) := by
  simp only [prepare, ordinary_bind, ordinary_get, ordinary_extractMintDecimals, ordinary_pure,
    ordinary_checkShape, ordinary_readTokenLedger, ordinary_createMissingAtas,
    ordinary_takeSnapshot, ordinary_readEffectiveAmount, ordinary_deposit, true_and,
    implies_true, and_true]
  intro _ hshape _ _ _ _
  refine (ordinary_okOr _ _).mpr (.inl ?_)
  rw [List.getLast?_isSome]
  exact (checkShape_spec hshape).swaps_ne_nil

theorem ordinary_runLegs {venue : VenueProgram} {ctx : Context} {reservedBalances : List ℕ}
    {swaps : List SwapSpecInputV2}
    (hfrom : ∀ swap ∈ swaps, swap.from.toNat < reservedBalances.length) (leg : ℕ)
    (st : LegState) : Ordinary (runLegs venue ctx reservedBalances swaps leg st) := by
  induction swaps generalizing leg st with
  | nil => simp [runLegs]
  | cons swap rest ih =>
      simp only [runLegs, ordinary_bind]
      refine ⟨?_, fun mid _ => ih (fun other hother => hfrom other (by simp [hother])) _ _⟩
      have hreserved : Ordinary (okOr reservedBalances[swap.from.toNat]? .indexOutOfBounds) :=
        (ordinary_okOr _ _).mpr (.inl (by simpa using hfrom swap (by simp)))
      simp only [runLeg, ordinary_bind, ordinary_require, RouteError.ordinary, or_true,
        ordinary_get, ordinary_extractTokenAmount, hreserved, true_and]
      intro _ _ _ _ input _ balance _ reserved _
      refine ordinary_ite (fun _ => ?_) fun _ => by simp
      simp only [ordinary_bind, ordinary_pure, implies_true, and_true, performCpiSwap]
      exact ordinary_foldlM _ fun _ _ => ordinary_invoke _

theorem ordinary_payOut {ctx : Context} {outputAtaIndex : ℕ} {outputMint : Pubkey}
    {outputDecimals : UInt8} {reservedBalances : List ℕ} {bank : Bank}
    (hindex : outputAtaIndex < reservedBalances.length) :
    Ordinary (payOut rt ctx outputAtaIndex outputMint outputDecimals reservedBalances bank) := by
  have hreserved : Ordinary (okOr reservedBalances[outputAtaIndex]? .indexOutOfBounds) :=
    (ordinary_okOr _ _).mpr (.inl (by simpa using hindex))
  simp only [payOut, ordinary_bind, ordinary_get, ordinary_extractTokenAmount, hreserved,
    ordinary_transferTokens, ordinary_pure, true_and, implies_true, and_true]
  intro _ _ _ _ _ _
  exact ordinary_ite (fun _ => by simp) fun _ => by simp

theorem ordinary_closeCreatedAtas (ctx : Context) (mintsCount : ℕ) (createdAtas : BitVec 16)
    (bank : Bank) : Ordinary (closeCreatedAtas rt ctx mintsCount createdAtas bank) := by
  refine ordinary_foldlM _ fun st i => ordinary_ite (fun _ => by simp) fun _ => ?_
  simp only [ordinary_bind, ordinary_get, true_and]
  exact fun ata _ => ordinary_ite (fun _ => by simp) fun _ => by simp

theorem Prepares.snapshotSpec {ctx : Context} {amount : UInt64} {mints : UInt8}
    {swaps : List SwapSpecInputV2} {bank : Bank} {inputMint : AccountInfo}
    {inputDecimals : UInt8} {prepared : Prepared}
    (h : Prepares rt ctx amount mints swaps bank inputMint inputDecimals prepared) :
    SnapshotSpec ctx.accounts.titanPda mints.toNat prepared.opened.bank ctx.remainingAccounts
      prepared.snapshot :=
  takeSnapshot_spec h.shaped.mints_le h.snapshots

/-- Every route mint has its token account among the remaining accounts, in custody and
with its balance as reserve. -/
theorem Prepares.routeAta {ctx : Context} {amount : UInt64} {mints : UInt8}
    {swaps : List SwapSpecInputV2} {bank : Bank} {inputMint : AccountInfo}
    {inputDecimals : UInt8} {prepared : Prepared}
    (h : Prepares rt ctx amount mints swaps bank inputMint inputDecimals prepared) {index : ℕ}
    (hindex : index < mints.toNat) :
    ∃ ata, ctx.remainingAccounts[index]? = some ata ∧
      isTitanPdaTokenAccount (prepared.opened.bank ata.key) ctx.accounts.titanPda = true ∧
      prepared.snapshot.reservedBalances[index]? =
        some (tokenAmount (prepared.opened.bank ata.key)) := by
  have hlt : index < ctx.remainingAccounts.length := by
    have hremaining := h.shaped.remaining_le
    omega
  have hata := List.getElem?_eq_getElem hlt
  exact ⟨_, hata, h.snapshotSpec.route _ _ hindex hata, h.snapshotSpec.reserved _ _ hindex hata⟩

theorem Prepares.outputAtaIndex_lt {ctx : Context} {amount : UInt64} {mints : UInt8}
    {swaps : List SwapSpecInputV2} {bank : Bank} {inputMint : AccountInfo}
    {inputDecimals : UInt8} {prepared : Prepared}
    (h : Prepares rt ctx amount mints swaps bank inputMint inputDecimals prepared) :
    prepared.outputAtaIndex < mints.toNat := by
  obtain ⟨last, hlast, houtput⟩ := h.output_index
  rw [houtput]
  exact h.shaped.to_lt last (List.mem_of_getLast? hlast)

/-! ## The errors of an execution -/

/-- An execution fails in the ordinary way, or because it ended with a protected account
below its snapshot. -/
theorem execute_error {venue : VenueProgram} {ctx : Context} {amount : UInt64}
    {mints : UInt8} {swaps : List SwapSpecInputV2} {bank : Bank} {error : RouteError}
    (h : execute rt venue ctx amount mints swaps bank = .error error) :
    error.ordinary = true ∨ error = .template .reservedBalanceViolation ∧
      ∃ prepared traded payout closing, prepare rt ctx amount mints swaps bank = .ok prepared ∧
        prepared.trade venue ctx mints swaps = .ok traded ∧
        payOut rt ctx prepared.outputAtaIndex prepared.outputMint prepared.outputDecimals
          prepared.snapshot.reservedBalances traded.bank = .ok payout ∧
        closeCreatedAtas rt ctx mints.toNat prepared.opened.createdAtas payout.paid =
          .ok closing ∧
        ∃ info ∈ ctx.remainingAccounts,
          isTitanPdaTokenAccount (prepared.opened.bank info.key) ctx.accounts.titanPda = true ∧
          tokenAmount (closing.bank info.key) < tokenAmount (prepared.opened.bank info.key) := by
  simp only [execute, bind_eq_error, pure_ne_error, and_false, exists_false, or_false] at h
  rcases h with h | ⟨prepared, hprepared, h⟩
  · exact .inl (ordinary_prepare ctx amount mints swaps bank error h)
  obtain ⟨inputMint, inputDecimals, hspec⟩ := prepare_spec hprepared
  have hreserved {index : ℕ} (hindex : index < mints.toNat) :
      index < prepared.snapshot.reservedBalances.length := by
    obtain ⟨ata, _, _, hget⟩ := hspec.routeAta hindex
    exact (List.getElem?_eq_some_iff.mp hget).1
  rcases h with h | ⟨traded, htraded, h⟩
  · exact .inl (ordinary_runLegs (fun swap hswap =>
      hreserved (hspec.shaped.from_lt swap hswap)) _ _ error h)
  rcases h with h | ⟨payout, hpayout, h⟩
  · exact .inl (ordinary_payOut (hreserved hspec.outputAtaIndex_lt) error h)
  rcases h with h | ⟨closing, hclosing, h⟩
  · exact .inl (ordinary_closeCreatedAtas ctx _ _ _ error h)
  rcases checkFinalBalances_spec hspec.snapshotSpec closing.bank with
    ⟨hok, _⟩ | ⟨herror, hbroken⟩
  · rw [hok] at h
    cases h
  · rw [herror] at h
    obtain rfl := Except.error.inj h
    exact .inr ⟨rfl, prepared, traded, payout, closing, hprepared, htraded, hpayout, hclosing,
      hbroken⟩

/-- No array access of the instruction is ever out of range. -/
theorem execute_ne_indexOutOfBounds (venue : VenueProgram) (ctx : Context) (amount : UInt64)
    (mints : UInt8) (swaps : List SwapSpecInputV2) (bank : Bank) :
    execute rt venue ctx amount mints swaps bank ≠ .error .indexOutOfBounds := by
  intro h
  rcases execute_error h with hordinary | ⟨hviolation, _⟩
  · cases hordinary
  · cases hviolation

end QuayTitan.Route
