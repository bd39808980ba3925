import Mathlib.Logic.Relation
import QuayTitan.Verification.Route.Legs

/-! # The instruction as a sequence of calls

Between two calls into other programs the instruction only reads. What holds across every
call therefore holds across a whole execution, whatever its branches. -/

namespace QuayTitan.Route

open Fallible Relation

variable {rt : Runtime}

/-- One call made before the accounts opened by the instruction are closed again. -/
inductive RouteStep (rt : Runtime) (venue : VenueProgram) (ctx : Context) (mintsCount : ℕ)
    (bank bank' : Bank) : Prop
  | opensAta (index : ℕ) (index_lt : index < mintsCount) (program : Pubkey)
      (call : createIdempotent rt ctx.accounts.payer ctx.accounts.titanPda
        (ctx.keyAt (mintsCount + index)) (ctx.keyAt index) program bank = .ok bank')
  | opensUser (account mint program : Pubkey)
      (account_eq : account = ctx.accounts.inputTokenAccount ∨
        account = ctx.accounts.outputTokenAccount)
      (call : createIdempotent rt ctx.accounts.payer ctx.accounts.user mint account program
        bank = .ok bank')
  | wraps (amount : ℕ)
      (call : systemTransfer ctx.accounts.user ctx.accounts.inputTokenAccount amount bank =
        .ok bank')
  | syncs (program : Pubkey)
      (call : syncNative program ctx.accounts.inputTokenAccount bank = .ok bank')
  | deposits (program : Pubkey) (checked : Option (Pubkey × UInt8)) (amount : ℕ)
      (call : tokenTransfer rt program checked ctx.accounts.inputTokenAccount (ctx.keyAt 0)
        ctx.accounts.user amount bank = .ok bank')
  | unwraps (program : Pubkey)
      (call : tokenClose rt program ctx.accounts.inputTokenAccount ctx.accounts.payer
        ctx.accounts.user bank = .ok bank')
  | swaps (leg amount index : ℕ) (swap : SwapSpecInputV2) (index_le : 2 * mintsCount ≤ index)
      (call : performCpiSwap venue leg amount swap
        (legInvocation ctx index swap.nAccounts.toNat).accountMetas
        (legInvocation ctx index swap.nAccounts.toNat).legAccounts bank = .ok bank')
  | pays (index : ℕ) (index_lt : index < mintsCount) (program : Pubkey)
      (checked : Option (Pubkey × UInt8)) (amount : ℕ)
      (call : tokenTransfer rt program checked (ctx.keyAt index)
        ctx.accounts.outputTokenAccount ctx.accounts.titanPda amount bank = .ok bank')

/-- One account opened by the instruction, empty by now, is closed again. -/
inductive CloseStep (rt : Runtime) (ctx : Context) (mintsCount : ℕ) (bank bank' : Bank) : Prop
  | closes (index : ℕ) (index_lt : index < mintsCount)
      (empty : tokenAmount (bank (ctx.keyAt index)) = 0) (program : Pubkey)
      (call : tokenClose rt program (ctx.keyAt index) ctx.accounts.payer ctx.accounts.titanPda
        bank = .ok bank')

/-- A leg's call is one call of its venue, whose effect reaches only the accounts of the leg. -/
theorem performCpiSwap_call {venue : VenueProgram} {leg amount : ℕ} {swap : SwapSpecInputV2}
    {accountMetas : List AccountMeta} {accountInfos : List AccountInfo} {bank bank' : Bank}
    (h : performCpiSwap venue leg amount swap accountMetas accountInfos bank = .ok bank') :
    ∃ instruction out, venue leg instruction accountInfos bank = .ok out ∧
      (∀ key ∈ accountInfos.map AccountInfo.key, bank' key = out key) ∧
      ∀ key ∉ accountInfos.map AccountInfo.key, bank' key = bank key := by
  cases hvenue : swap.venue with
  | quay sellBase =>
      obtain ⟨out, hout, rfl⟩ := (performCpiSwap_eq_ok hvenue).mp h
      exact ⟨_, out, hout, fun key hkey => if_pos hkey, fun key hkey => if_neg hkey⟩

/-- A property that no call changes is kept by any sequence of calls. -/
theorem reflTransGen_keeps {α : Type*} {r : α → α → Prop} {a b : α} (P : α → Prop)
    (hstep : ∀ a b, r a b → P a → P b) (h : ReflTransGen r a b) (ha : P a) : P b := by
  induction h with
  | refl => exact ha
  | tail _ hlast ih => exact hstep _ _ hlast ih

section Phases

variable {venue : VenueProgram} {ctx : Context} {mintsCount : ℕ} {bank bank' : Bank}

theorem createMissingAtas_steps {opened : Opened}
    (h : createMissingAtas rt ctx mintsCount bank = .ok opened) :
    ReflTransGen (RouteStep rt venue ctx mintsCount) bank opened.bank := by
  refine foldlM_invariant (fun st => ReflTransGen (RouteStep rt venue ctx mintsCount) bank st.bank)
    ?_ .refl h
  intro index hindex st st' hst hstep
  rcases createMissingAta_cases hstep with ⟨_, rfl⟩ | ⟨_, bank', hcreate, rfl⟩
  · exact hst
  · exact hst.tail (.opensAta index (List.mem_range.mp hindex) _ hcreate)

/-- A transfer of the instruction makes no call for a zero amount. -/
theorem transferTokens_call {tokenProgram source destination authority mint : Pubkey}
    {amount : ℕ} {decimals : UInt8}
    (h : transferTokens rt tokenProgram source destination authority (some mint) amount decimals
      bank = .ok bank') :
    bank' = bank ∨ ∃ program checked,
      tokenTransfer rt program checked source destination authority amount bank = .ok bank' := by
  unfold transferTokens at h
  split at h
  · rw [pure_eq_ok] at h
    exact .inl h.symm
  · split at h
    · simp only [bind_eq_ok, okOr_eq_ok, invoke_eq_ok] at h
      obtain ⟨_, _, htransfer⟩ := h
      exact .inr ⟨_, _, htransfer⟩
    · exact .inr ⟨_, _, invoke_eq_ok.mp h⟩

theorem transferSolAndSync_steps {tokenProgram : Pubkey} {amount : ℕ}
    (h : transferSolAndSync ctx.accounts.user ctx.accounts.inputTokenAccount tokenProgram amount
      bank = .ok bank') :
    ReflTransGen (RouteStep rt venue ctx mintsCount) bank bank' := by
  unfold transferSolAndSync at h
  split at h
  · rw [pure_eq_ok] at h
    rw [h]
  · simp only [bind_eq_ok, invoke_eq_ok] at h
    obtain ⟨funded, hfunded, hsync⟩ := h
    exact (ReflTransGen.single (.wraps amount hfunded)).tail (.syncs tokenProgram hsync)

theorem fundInputAccount_steps {inputMint tokenProgram : Pubkey} {ledgerAmount : Option ℕ}
    {effectiveAmount : ℕ} {created : Bool}
    (h : fundInputAccount rt ctx inputMint tokenProgram ledgerAmount effectiveAmount bank =
      .ok (created, bank')) :
    ReflTransGen (RouteStep rt venue ctx mintsCount) bank bank' := by
  rcases fundInputAccount_cases h with ⟨_, rfl⟩ | hsetup
  · exact .refl
  · rcases setupWsolInputAccount_cases hsetup with
      ⟨_, _, _, hfund⟩ | ⟨_, _, opened, hcreate, hfund⟩
    · exact transferSolAndSync_steps hfund
    · exact (transferSolAndSync_steps hfund).head (.opensUser _ _ _ (.inl rfl) hcreate)

theorem deposit_steps {inputMint : Pubkey} {inputDecimals : UInt8} {ledgerAmount : Option ℕ}
    {effectiveAmount : ℕ}
    (h : deposit rt ctx inputMint inputDecimals ledgerAmount effectiveAmount bank = .ok bank') :
    ReflTransGen (RouteStep rt venue ctx mintsCount) bank bank' := by
  simp only [deposit, bind_eq_ok, Context.get_eq_ok] at h
  obtain ⟨first, hfirst, ⟨created, mid⟩, hfunds, moved, hmoves, hclose⟩ := h
  have hmid : ReflTransGen (RouteStep rt venue ctx mintsCount) bank mid :=
    fundInputAccount_steps hfunds
  rw [← Context.keyAt_eq hfirst] at hmoves
  have hmoved : ReflTransGen (RouteStep rt venue ctx mintsCount) bank moved := by
    rcases transferTokens_call hmoves with rfl | ⟨program, checked, hcall⟩
    · exact hmid
    · exact hmid.tail (.deposits program checked _ hcall)
  split at hclose
  · exact hmoved.tail (.unwraps _ (invoke_eq_ok.mp hclose))
  · rw [pure_eq_ok] at hclose
    exact hclose ▸ hmoved

theorem runLegs_steps {reservedBalances : List ℕ} {swaps : List SwapSpecInputV2} {leg : ℕ}
    {st st' : LegState} (hindex : 2 * mintsCount ≤ st.remainingAccountIndex)
    (h : runLegs venue ctx reservedBalances swaps leg st = .ok st') :
    ReflTransGen (RouteStep rt venue ctx mintsCount) st.bank st'.bank := by
  suffices hall : 2 * mintsCount ≤ st'.remainingAccountIndex ∧
      ReflTransGen (RouteStep rt venue ctx mintsCount) st.bank st'.bank from hall.2
  refine runLegs_invariant (fun s => 2 * mintsCount ≤ s.remainingAccountIndex ∧
    ReflTransGen (RouteStep rt venue ctx mintsCount) st.bank s.bank) ?_ ⟨hindex, .refl⟩ h
  intro swap _ leg s s' record hspec _ hs
  refine ⟨by rw [hspec.index_eq]; omega, ?_⟩
  rcases hspec.outcome with ⟨_, _, hbank⟩ | ⟨_, invocation, _, hinvocation, hcall⟩
  · rw [hbank]
    exact hs.2
  · rw [hinvocation] at hcall
    exact hs.2.tail (.swaps leg _ _ swap hs.1 hcall)

theorem payOut_steps {outputAtaIndex : ℕ} {outputMint : Pubkey} {outputDecimals : UInt8}
    {reservedBalances : List ℕ} {payout : Payout} (hindex : outputAtaIndex < mintsCount)
    (h : payOut rt ctx outputAtaIndex outputMint outputDecimals reservedBalances bank =
      .ok payout) :
    ReflTransGen (RouteStep rt venue ctx mintsCount) bank payout.paid := by
  simp only [payOut, bind_eq_ok, pure_eq_ok, Context.get_eq_ok] at h
  obtain ⟨outputAta, hata, raw, _, reserved, _, ready, hready, paid, hpaid, rfl⟩ := h
  have hopen : ReflTransGen (RouteStep rt venue ctx mintsCount) bank ready := by
    unfold ensureOutputAccount at hready
    split at hready
    · rw [pure_eq_ok] at hready
      rw [hready]
    · exact .single (.opensUser _ _ _ (.inr rfl) (invoke_eq_ok.mp hready))
  rw [← Context.keyAt_eq hata] at hpaid
  rcases transferTokens_call hpaid with hsame | ⟨program, checked, hcall⟩
  · exact hsame ▸ hopen
  · exact hopen.tail (.pays _ hindex program checked _ hcall)

theorem closeCreatedAta_call {createdAtas : BitVec 16} {st st' : Closing} {index : ℕ}
    (hindex : index < mintsCount)
    (h : closeCreatedAta rt ctx mintsCount createdAtas st index = .ok st') :
    st'.bank = st.bank ∨ CloseStep rt ctx mintsCount st.bank st'.bank := by
  unfold closeCreatedAta at h
  split at h
  · rw [pure_eq_ok] at h
    exact .inl (h ▸ rfl)
  · simp only [bind_eq_ok, Context.get_eq_ok] at h
    obtain ⟨ata, hata, h⟩ := h
    rw [← Context.keyAt_eq hata] at h
    split at h
    · rw [pure_eq_ok] at h
      exact .inl (h ▸ rfl)
    · rename_i hempty
      simp only [bind_eq_ok, invoke_eq_ok, pure_eq_ok] at h
      obtain ⟨mint, _, bank', hclose, rfl⟩ := h
      exact .inr (.closes index hindex (Nat.eq_zero_of_not_pos hempty) _ hclose)

theorem closeCreatedAtas_steps {createdAtas : BitVec 16} {closing : Closing}
    (h : closeCreatedAtas rt ctx mintsCount createdAtas bank = .ok closing) :
    ReflTransGen (CloseStep rt ctx mintsCount) bank closing.bank := by
  refine foldlM_invariant (fun st => ReflTransGen (CloseStep rt ctx mintsCount) bank st.bank) ?_
    .refl h
  intro index hindex st st' hst hstep
  rcases closeCreatedAta_call (List.mem_range.mp hindex) hstep with hsame | hcloses
  · exact hsame ▸ hst
  · exact hst.tail hcloses

end Phases

/-- An execution is a sequence of calls, the closing ones last. -/
theorem Executes.steps {venue : VenueProgram} {ctx : Context} {amount : UInt64} {mints : UInt8}
    {swaps : List SwapSpecInputV2} {bank : Bank} {run : RouteRun}
    (h : Executes rt venue ctx amount mints swaps bank run) :
    ReflTransGen (RouteStep rt venue ctx mints.toNat) bank run.payout.paid ∧
      ReflTransGen (CloseStep rt ctx mints.toNat) run.payout.paid run.final := by
  obtain ⟨inputMint, inputDecimals, hprepares⟩ := prepare_spec h.prepares
  have hopened : ReflTransGen (RouteStep rt venue ctx mints.toNat) bank run.opened.bank :=
    createMissingAtas_steps hprepares.opens
  have hdeposited : ReflTransGen (RouteStep rt venue ctx mints.toNat) run.opened.bank
      run.deposited := deposit_steps hprepares.deposits
  have htraded : ReflTransGen (RouteStep rt venue ctx mints.toNat) run.deposited run.traded.bank :=
    runLegs_steps le_rfl h.trades
  have hpaid : ReflTransGen (RouteStep rt venue ctx mints.toNat) run.traded.bank
      run.payout.paid := payOut_steps hprepares.outputAtaIndex_lt h.pays
  exact ⟨((hopened.trans hdeposited).trans htraded).trans hpaid, closeCreatedAtas_steps h.closes⟩

end QuayTitan.Route
