import QuayTitan.Verification.Route.Snapshot

/-! # The phases of an execution and their effects -/

namespace QuayTitan.Route

open ByteFields Fallible

variable {rt : Runtime}

/-! ## Inversion of an execution -/

/-- What the shape checks establish of an instruction. -/
structure WellShaped (ctx : Context) (mints : UInt8) (swaps : List SwapSpecInputV2) :
    Prop where
  swaps_ne_nil : swaps ≠ []
  length_le : swaps.length ≤ maxSwaps
  one_lt_mints : 1 < mints.toNat
  mints_le : mints.toNat ≤ maxMints
  remaining_le : 2 * mints.toNat ≤ ctx.remainingAccounts.length
  head_from : ∀ swap, swaps.head? = some swap → swap.from.toNat = 0
  from_lt : ∀ swap ∈ swaps, swap.from.toNat < mints.toNat
  to_lt : ∀ swap ∈ swaps, swap.to.toNat < mints.toNat

theorem WellShaped.mints_pos {ctx : Context} {mints : UInt8} {swaps : List SwapSpecInputV2}
    (h : WellShaped ctx mints swaps) : 0 < mints := by
  rw [UInt8.lt_iff_toNat_lt]
  exact Nat.lt_of_lt_of_le Nat.zero_lt_one h.one_lt_mints.le

theorem checkShape_spec {ctx : Context} {mints : UInt8} {swaps : List SwapSpecInputV2}
    {u : Unit} (h : checkShape ctx mints swaps = .ok u) : WellShaped ctx mints swaps := by
  simp only [checkShape, bind_eq_ok, require_eq_ok, okOr_eq_ok] at h
  obtain ⟨_, ⟨hmints, hne⟩, _, hlength, _, hcount, _, hremaining, first, hfirst, _, hfrom,
    hall⟩ := h
  refine ⟨hne, hlength, ?_, hcount, hremaining, ?_, fun swap hswap => ?_, fun swap hswap => ?_⟩
  · exact UInt8.lt_iff_toNat_lt.mp hmints
  · intro swap hswap
    rw [hfirst] at hswap
    obtain rfl := Option.some.inj hswap
    rw [hfrom]
    rfl
  · exact UInt8.lt_iff_toNat_lt.mp (hall swap hswap).1
  · exact UInt8.lt_iff_toNat_lt.mp (hall swap hswap).2

/-- The phases of `prepare`, each applied to what the ones before it left. -/
structure Prepares (rt : Runtime) (ctx : Context) (amount : UInt64) (mints : UInt8)
    (swaps : List SwapSpecInputV2) (bank : Bank) (inputMint : AccountInfo)
    (inputDecimals : UInt8) (prepared : Prepared) : Prop where
  shaped : WellShaped ctx mints swaps
  ledger : readTokenLedger ctx bank = .ok prepared.ledgerAmount
  input_mint : ctx.remainingAccounts[mints.toNat]? = some inputMint
  input_decimals : extractMintDecimals (bank inputMint.key) = .ok inputDecimals
  output_index : ∃ last, swaps.getLast? = some last ∧
    prepared.outputAtaIndex = last.to.toNat
  output_mint : ∃ info, ctx.remainingAccounts[mints.toNat + prepared.outputAtaIndex]? =
    some info ∧ info.key = prepared.outputMint
  output_decimals : extractMintDecimals (bank prepared.outputMint) =
    .ok prepared.outputDecimals
  opens : createMissingAtas rt ctx mints.toNat bank = .ok prepared.opened
  snapshots : takeSnapshot ctx.accounts.titanPda mints.toNat prepared.opened.bank
    ctx.remainingAccounts 0 .new = .ok prepared.snapshot
  effective : readEffectiveAmount ctx prepared.ledgerAmount amount.toNat
    prepared.opened.bank = .ok prepared.effectiveAmount
  deposits : deposit rt ctx inputMint.key inputDecimals prepared.ledgerAmount
    prepared.effectiveAmount prepared.opened.bank = .ok prepared.deposited

theorem prepare_spec {ctx : Context} {amount : UInt64} {mints : UInt8}
    {swaps : List SwapSpecInputV2} {bank : Bank} {prepared : Prepared}
    (h : prepare rt ctx amount mints swaps bank = .ok prepared) :
    ∃ inputMint inputDecimals,
      Prepares rt ctx amount mints swaps bank inputMint inputDecimals prepared := by
  simp only [prepare, bind_eq_ok, pure_eq_ok, okOr_eq_ok, Context.get_eq_ok] at h
  obtain ⟨_, hshape, ledger, hledger, inputMint, hinput, last, hlast, outputMint, houtput,
    inputDecimals, hinDec, outputDecimals, houtDec, opened, hopened, snapshot, hsnapshot,
    effective, heffective, deposited, hdeposited, rfl⟩ := h
  exact ⟨inputMint, inputDecimals, checkShape_spec hshape, hledger, hinput, hinDec,
    ⟨last, hlast, rfl⟩, ⟨outputMint, houtput, rfl⟩, houtDec, hopened, hsnapshot, heffective,
    hdeposited⟩

/-- The phases of `execute`. -/
structure Executes (rt : Runtime) (venue : VenueProgram) (ctx : Context) (amount : UInt64)
    (mints : UInt8) (swaps : List SwapSpecInputV2) (bank : Bank) (run : RouteRun) :
    Prop where
  prepares : prepare rt ctx amount mints swaps bank = .ok run.toPrepared
  trades : run.toPrepared.trade venue ctx mints swaps = .ok run.traded
  pays : payOut rt ctx run.outputAtaIndex run.outputMint run.outputDecimals
    run.snapshot.reservedBalances run.traded.bank = .ok run.payout
  closes : closeCreatedAtas rt ctx mints.toNat run.opened.createdAtas run.payout.paid =
    .ok run.closing
  checks : checkFinalBalances run.snapshot.titanPdaAtaBitmap
    run.snapshot.titanPdaAtaBalances run.final ctx.remainingAccounts 0 0 = .ok ()

theorem execute_eq_ok {venue : VenueProgram} {ctx : Context} {amount : UInt64}
    {mints : UInt8} {swaps : List SwapSpecInputV2} {bank : Bank} {run : RouteRun} :
    execute rt venue ctx amount mints swaps bank = .ok run ↔
      Executes rt venue ctx amount mints swaps bank run := by
  simp only [execute, bind_eq_ok, pure_eq_ok]
  constructor
  · rintro ⟨prepared, hprepared, traded, htraded, payout, hpayout, closing, hclosing, _,
      hchecks, rfl⟩
    exact ⟨hprepared, htraded, hpayout, hclosing, hchecks⟩
  · intro h
    exact ⟨_, h.prepares, _, h.trades, _, h.pays, _, h.closes, _, h.checks, rfl⟩

/-! ## Opening the token accounts -/

/-- An account is opened, and its bit set, when it does not exist. -/
theorem createMissingAta_cases {ctx : Context} {mintsCount i : ℕ} {st st' : Opened}
    (h : createMissingAta rt ctx mintsCount st i = .ok st') :
    (accountExists (st.bank (ctx.keyAt i)) = true ∧ st' = st) ∨
    (accountExists (st.bank (ctx.keyAt i)) = false ∧ ∃ bank',
      createIdempotent rt ctx.accounts.payer ctx.accounts.titanPda (ctx.keyAt (mintsCount + i))
        (ctx.keyAt i) (ctx.tokenProgramFor (st.bank (ctx.keyAt (mintsCount + i)))) st.bank =
          .ok bank' ∧
      st' = ⟨bank', st.createdAtas ||| (1#16 <<< i)⟩) := by
  simp only [createMissingAta, bind_eq_ok, Context.get_eq_ok] at h
  obtain ⟨ata, hata, h⟩ := h
  rw [← Context.keyAt_eq hata] at h
  split at h
  · rename_i hexists
    rw [pure_eq_ok] at h
    exact .inl ⟨hexists, h.symm⟩
  · rename_i hmissing
    simp only [bind_eq_ok, invoke_eq_ok, pure_eq_ok, Context.get_eq_ok] at h
    obtain ⟨mint, hmint, bank, hbank, rfl⟩ := h
    rw [← Context.keyAt_eq hmint] at hbank
    exact .inr ⟨by simpa using hmissing, _, hbank, rfl⟩

theorem createMissingAta_sameContents {ctx : Context} {mintsCount i : ℕ} {st st' : Opened}
    (h : createMissingAta rt ctx mintsCount st i = .ok st') {key : Pubkey}
    (hdata : (st.bank key).data ≠ []) : SameContents (st.bank key) (st'.bank key) := by
  rcases createMissingAta_cases h with ⟨_, rfl⟩ | ⟨_, bank', hcreate, rfl⟩
  · exact SameContents.refl _
  · exact createIdempotent_sameContents hcreate hdata

theorem createMissingAtas_sameContents {ctx : Context} {mintsCount : ℕ} {bank : Bank}
    {opened : Opened} (h : createMissingAtas rt ctx mintsCount bank = .ok opened)
    {key : Pubkey} (hdata : (bank key).data ≠ []) :
    SameContents (bank key) (opened.bank key) := by
  refine foldlM_invariant (fun st : Opened => SameContents (bank key) (st.bank key))
    (fun i _ st st' hst hstep => ?_) (SameContents.refl _) h
  exact hst.trans (createMissingAta_sameContents hstep (by rw [hst.data_eq]; exact hdata))

/-! ## The deposit -/

/-- Only native SOL without a ledger needs its input account set up. -/
theorem fundInputAccount_cases {ctx : Context} {inputMint tokenProgram : Pubkey}
    {ledgerAmount : Option ℕ} {effectiveAmount : ℕ} {bank mid : Bank} {created : Bool}
    (h : fundInputAccount rt ctx inputMint tokenProgram ledgerAmount effectiveAmount bank =
      .ok (created, mid)) :
    (created = false ∧ mid = bank) ∨
      setupWsolInputAccount rt ctx.accounts.payer ctx.accounts.user ctx.accounts.inputTokenAccount
        inputMint tokenProgram effectiveAmount bank = .ok (created, mid) := by
  unfold fundInputAccount at h
  split at h
  · exact .inr h
  · rw [pure_eq_ok] at h
    obtain ⟨rfl, rfl⟩ := Prod.mk.inj h
    exact .inl ⟨rfl, rfl⟩

/-- The phases of a deposit. -/
structure DepositSpec (rt : Runtime) (ctx : Context) (inputMint : Pubkey) (inputDecimals : UInt8)
    (ledgerAmount : Option ℕ) (effectiveAmount : ℕ) (bank : Bank) (first : AccountInfo)
    (created : Bool) (mid moved bank' : Bank) : Prop where
  first_eq : ctx.remainingAccounts[0]? = some first
  funds : fundInputAccount rt ctx inputMint (ctx.tokenProgramFor (bank inputMint)) ledgerAmount
    effectiveAmount bank = .ok (created, mid)
  moves : transferTokens rt (ctx.tokenProgramFor (bank inputMint))
    ctx.accounts.inputTokenAccount first.key ctx.accounts.user (some inputMint) effectiveAmount
    inputDecimals mid = .ok moved
  closes : created = true → ∃ token, CloseSpec (ctx.tokenProgramFor (bank inputMint))
    ctx.accounts.inputTokenAccount ctx.accounts.payer token moved bank'
  kept : created = false → bank' = moved

theorem deposit_spec {ctx : Context} {inputMint : Pubkey} {inputDecimals : UInt8}
    {ledgerAmount : Option ℕ} {effectiveAmount : ℕ} {bank bank' : Bank}
    (h : deposit rt ctx inputMint inputDecimals ledgerAmount effectiveAmount bank =
      .ok bank') :
    ∃ first created mid moved, DepositSpec rt ctx inputMint inputDecimals ledgerAmount
      effectiveAmount bank first created mid moved bank' := by
  simp only [deposit, bind_eq_ok, Context.get_eq_ok] at h
  obtain ⟨first, hfirst, ⟨created, mid⟩, hsetup, moved, hmoved, hclose⟩ := h
  refine ⟨first, created, mid, moved, hfirst, hsetup, hmoved, fun htrue => ?_, fun hfalse => ?_⟩
  · rw [if_pos htrue] at hclose
    exact tokenClose_spec (invoke_eq_ok.mp hclose)
  · rw [hfalse, if_neg Bool.false_ne_true, pure_eq_ok] at hclose
    exact hclose.symm

/-- What the first TitanPDA account receives of a deposit. -/
def depositCredit (rt : Runtime) (ctx : Context) (inputMint : Pubkey) (effectiveAmount : ℕ)
    (bank : Bank) : ℕ :=
  effectiveAmount -
    routeFee rt (ctx.tokenProgramFor (bank inputMint)) inputMint effectiveAmount

/-- The deposit credits the first TitanPDA account and no other account in custody. -/
theorem deposit_rebalanced {ctx : Context} {inputMint : Pubkey} {inputDecimals : UInt8}
    {ledgerAmount : Option ℕ} {effectiveAmount : ℕ} {bank bank' : Bank} {first : AccountInfo}
    (h : deposit rt ctx inputMint inputDecimals ledgerAmount effectiveAmount bank =
      .ok bank')
    (hfirst : ctx.remainingAccounts[0]? = some first) {key titanPda : Pubkey}
    (htitan : isTitanPdaTokenAccount (bank key) titanPda = true)
    (hkey : key ≠ ctx.accounts.inputTokenAccount) :
    Rebalanced (bank key) (bank' key) (tokenAmount (bank key) +
      if key = first.key then depositCredit rt ctx inputMint effectiveAmount bank else 0) := by
  obtain ⟨first', created, mid, moved, hphases⟩ := deposit_spec h
  obtain rfl := Option.some.inj (hfirst.symm.trans hphases.first_eq)
  have hmid : SameContents (bank key) (mid key) := by
    rcases fundInputAccount_cases hphases.funds with ⟨_, rfl⟩ | hsetup
    · exact SameContents.refl _
    · exact setupWsolInputAccount_sameContents hsetup hkey
        (data_ne_nil_of_isTitanPda htitan)
  have htitanMid : isTitanPdaTokenAccount (mid key) titanPda = true := by
    rw [isTitanPda_of_sameContents hmid]
    exact htitan
  have hmoved := transferTokens_rebalanced hphases.moves htitanMid
  have hamount : transferredAmount ctx.accounts.inputTokenAccount first.key key
      effectiveAmount (effectiveAmount - routeFee rt (ctx.tokenProgramFor (bank inputMint))
        inputMint effectiveAmount) (tokenAmount (mid key)) =
      tokenAmount (bank key) +
        if key = first.key then depositCredit rt ctx inputMint effectiveAmount bank else 0 := by
    rw [tokenAmount_of_sameContents hmid, transferredAmount, if_neg hkey]
    by_cases hk : key = first.key
    · rw [if_neg (fun heq => hkey (hk.trans heq.symm)), if_pos hk, if_pos hk, depositCredit]
    · simp only [hk, if_false, Nat.add_zero, ite_self]
  rw [hamount] at hmoved
  have hmovedKey := (rebalanced_of_sameContents hmid htitan).trans hmoved
  cases created with
  | false =>
      rw [hphases.kept rfl]
      exact hmovedKey
  | true =>
      obtain ⟨token, hspec⟩ := hphases.closes rfl
      have hsame := hspec.contents key hkey
      have hkept := rebalanced_of_sameContents hsame (isTitanPda_of_rebalanced hmovedKey htitan)
      rw [tokenAmount_of_rebalanced hmovedKey] at hkept
      exact hmovedKey.trans hkept

/-- The deposit reaches only the user's accounts, the payer and the first account. -/
theorem deposit_frame {ctx : Context} {inputMint : Pubkey} {inputDecimals : UInt8}
    {ledgerAmount : Option ℕ} {effectiveAmount : ℕ} {bank bank' : Bank} {first : AccountInfo}
    (h : deposit rt ctx inputMint inputDecimals ledgerAmount effectiveAmount bank =
      .ok bank')
    (hfirst : ctx.remainingAccounts[0]? = some first) {key : Pubkey}
    (hkey : key ≠ first.key) (hinput : key ≠ ctx.accounts.inputTokenAccount)
    (huser : key ≠ ctx.accounts.user) (hpayer : key ≠ ctx.accounts.payer) :
    bank' key = bank key := by
  obtain ⟨first', created, mid, moved, hphases⟩ := deposit_spec h
  obtain rfl := Option.some.inj (hfirst.symm.trans hphases.first_eq)
  have hmid : mid key = bank key := by
    rcases fundInputAccount_cases hphases.funds with ⟨_, rfl⟩ | hsetup
    · rfl
    · exact setupWsolInputAccount_frame hsetup hpayer huser hinput
  have hmoved := (transferTokens_frame hphases.moves hinput hkey).trans hmid
  cases created with
  | false =>
      rw [hphases.kept rfl]
      exact hmoved
  | true =>
      obtain ⟨token, hspec⟩ := hphases.closes rfl
      rw [hspec.frame key hinput hpayer]
      exact hmoved

/-! ## The payout -/

/-- The phases of the payout. -/
structure PayoutSpec (rt : Runtime) (ctx : Context) (outputAtaIndex : ℕ) (outputMint : Pubkey)
    (outputDecimals : UInt8) (reservedBalances : List ℕ) (bank : Bank)
    (outputAta : AccountInfo) (reserved : ℕ) (payout : Payout) : Prop where
  output_ata : ctx.remainingAccounts[outputAtaIndex]? = some outputAta
  reserved_eq : reservedBalances[outputAtaIndex]? = some reserved
  raw_eq : getLE (bank outputAta.key).data 64 8 = some payout.rawOutputBalance
  output_eq : payout.userOutput = payout.rawOutputBalance - reserved
  ready : ∀ key, (bank key).data ≠ [] → SameContents (bank key) (payout.ready key)
  ready_existing : accountExists (bank ctx.accounts.outputTokenAccount) = true →
    payout.ready = bank
  pays : transferTokens rt (ctx.tokenProgramFor (bank outputMint)) outputAta.key
    ctx.accounts.outputTokenAccount ctx.accounts.titanPda (some outputMint)
    payout.userOutput outputDecimals payout.ready = .ok payout.paid

theorem payOut_spec {ctx : Context} {outputAtaIndex : ℕ} {outputMint : Pubkey}
    {outputDecimals : UInt8} {reservedBalances : List ℕ} {bank : Bank} {payout : Payout}
    (h : payOut rt ctx outputAtaIndex outputMint outputDecimals reservedBalances bank =
      .ok payout) :
    ∃ outputAta reserved, PayoutSpec rt ctx outputAtaIndex outputMint outputDecimals
      reservedBalances bank outputAta reserved payout := by
  simp only [payOut, bind_eq_ok, pure_eq_ok, Context.get_eq_ok, okOr_eq_ok,
    extractTokenAmount_eq_ok] at h
  obtain ⟨outputAta, hata, raw, hraw, reserved, hreserved, ready, hready, paid, hpaid, rfl⟩ := h
  refine ⟨outputAta, reserved, hata, hreserved, hraw, rfl, ?_, ?_, hpaid⟩
  · intro key hdata
    unfold ensureOutputAccount at hready
    split at hready
    · rw [pure_eq_ok] at hready
      exact hready ▸ SameContents.refl _
    · exact createIdempotent_sameContents (invoke_eq_ok.mp hready) hdata
  · intro hexists
    rw [ensureOutputAccount, if_pos hexists, pure_eq_ok] at hready
    exact hready.symm

/-! ## Closing -/

/-- An account the close loop left alone up to lamports, or closed when empty. -/
def KeptOrClosed (account account' : Account) : Prop :=
  SameContents account account' ∨
    (tokenAmount account = 0 ∧ account'.data = [] ∧ account'.owner = systemProgramId)

theorem tokenAmount_of_keptOrClosed {account account' : Account}
    (h : KeptOrClosed account account') : tokenAmount account' = tokenAmount account := by
  rcases h with hsame | ⟨hzero, hnil, _⟩
  · exact tokenAmount_of_sameContents hsame
  · rw [hzero, tokenAmount_of_data_nil hnil]

theorem KeptOrClosed.trans_sameContents {a b c : Account} (h : KeptOrClosed a b)
    (h' : SameContents b c) : KeptOrClosed a c := by
  rcases h with hsame | ⟨hzero, hnil, howner⟩
  · exact .inl (hsame.trans h')
  · exact .inr ⟨hzero, h'.data_eq.trans hnil, h'.owner_eq.trans howner⟩

/-- What the close loop does with a slot. -/
inductive SlotClosing (ctx : Context) (createdAtas : BitVec 16) (i : ℕ) (st st' : Closing) : Prop
  | skipped (same : st' = st)
      (reason : createdAtas &&& (1#16 <<< i) = 0 ∨ 0 < tokenAmount (st.bank (ctx.keyAt i)))
  | closes (bit : createdAtas &&& (1#16 <<< i) ≠ 0)
      (empty : tokenAmount (st.bank (ctx.keyAt i)) = 0) (closed_eq : st'.closed = st.closed ++ [i])
      (program : Pubkey) (token : TokenAccount)
      (spec : CloseSpec program (ctx.keyAt i) ctx.accounts.payer token st.bank st'.bank)

theorem closeCreatedAta_cases {ctx : Context} {mintsCount i : ℕ} {createdAtas : BitVec 16}
    {st st' : Closing} (h : closeCreatedAta rt ctx mintsCount createdAtas st i = .ok st') :
    SlotClosing ctx createdAtas i st st' := by
  unfold closeCreatedAta at h
  split at h
  · rename_i hbit
    rw [pure_eq_ok] at h
    exact .skipped h.symm (.inl hbit)
  · rename_i hbit
    simp only [bind_eq_ok, Context.get_eq_ok] at h
    obtain ⟨ata, hata, h⟩ := h
    rw [← Context.keyAt_eq hata] at h
    split at h
    · rename_i hamount
      rw [pure_eq_ok] at h
      exact .skipped h.symm (.inr hamount)
    · rename_i hempty
      simp only [bind_eq_ok, invoke_eq_ok, pure_eq_ok] at h
      obtain ⟨mint, _, bank', hclose, rfl⟩ := h
      obtain ⟨token, hspec⟩ := tokenClose_spec hclose
      exact .closes hbit (Nat.eq_zero_of_not_pos hempty) rfl _ token hspec

theorem closeCreatedAta_keptOrClosed {ctx : Context} {mintsCount i : ℕ}
    {createdAtas : BitVec 16} {st st' : Closing}
    (h : closeCreatedAta rt ctx mintsCount createdAtas st i = .ok st') (key : Pubkey) :
    KeptOrClosed (st.bank key) (st'.bank key) := by
  cases closeCreatedAta_cases h with
  | skipped same _ => exact same ▸ .inl (SameContents.refl _)
  | closes _ empty _ program token spec =>
      by_cases hkey : key = ctx.keyAt i
      · subst hkey
        exact .inr ⟨empty, congrArg Account.data spec.closed, congrArg Account.owner spec.closed⟩
      · exact .inl (spec.contents key hkey)

theorem closeCreatedAtas_keptOrClosed {ctx : Context} {mintsCount : ℕ}
    {createdAtas : BitVec 16} {bank : Bank} {closing : Closing}
    (h : closeCreatedAtas rt ctx mintsCount createdAtas bank = .ok closing) (key : Pubkey) :
    KeptOrClosed (bank key) (closing.bank key) := by
  refine foldlM_invariant (fun st : Closing => KeptOrClosed (bank key) (st.bank key))
    (fun i _ st st' hst hstep => ?_) (.inl (SameContents.refl _)) h
  rcases closeCreatedAta_keptOrClosed hstep key with hsame | ⟨hzero, hnil, howner⟩
  · exact hst.trans_sameContents hsame
  · exact .inr ⟨by rw [← tokenAmount_of_keptOrClosed hst]; exact hzero, hnil, howner⟩

/-- Closing changes no token balance: only empty accounts are closed. -/
theorem tokenAmount_closeCreatedAtas {ctx : Context} {mintsCount : ℕ}
    {createdAtas : BitVec 16} {bank : Bank} {closing : Closing}
    (h : closeCreatedAtas rt ctx mintsCount createdAtas bank = .ok closing) (key : Pubkey) :
    tokenAmount (closing.bank key) = tokenAmount (bank key) :=
  tokenAmount_of_keptOrClosed (closeCreatedAtas_keptOrClosed h key)

end QuayTitan.Route
