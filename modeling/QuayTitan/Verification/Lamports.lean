import QuayTitan.Verification.Holdings

/-! # Lamports under the calls

Opening an account moves lamports from the payer, and wrapped SOL moves with its lamports. -/

namespace QuayTitan

open ByteFields Fallible

variable {rt : Runtime}

/-- A payer and the address it funds hold the same lamports between them. -/
theorem fundRent_lamports {payer account : Pubkey} {shortfall : ℕ} {bank bank' : Bank}
    (h : fundRent payer account shortfall bank = .ok bank') (hne : payer ≠ account) :
    (bank' payer).lamports + (bank' account).lamports =
      (bank payer).lamports + (bank account).lamports := by
  have hpaid := fundRent_payer h hne
  have hreceived := (fundRent_spec h).received hne
  omega

/-- Opening an account neither makes nor loses lamports. -/
theorem createIdempotent_lamports {payer wallet mint account program : Pubkey}
    {bank bank' : Bank}
    (h : createIdempotent rt payer wallet mint account program bank = .ok bank')
    (hne : payer ≠ account) :
    (bank' payer).lamports + (bank' account).lamports =
      (bank payer).lamports + (bank account).lamports := by
  simp only [createIdempotent, bind_eq_ok, check_eq_ok] at h
  obtain ⟨_, _, h⟩ := h
  split at h
  · simp only [bind_eq_ok, check_eq_ok, pure_eq_ok] at h
    obtain ⟨_, _, _, _, rfl⟩ := h
    rfl
  · simp only [openAccount, bind_eq_ok, check_eq_ok, pure_eq_ok] at h
    obtain ⟨_, _, _, _, _, _, _, _, funded, hfunded, rfl⟩ := h
    rw [Function.update_of_ne hne, Function.update_self, openedAccount_lamports]
    exact fundRent_lamports hfunded hne

/-- The balance of a token account is overwritten, whatever the number. -/
theorem Unpacks.overwritten {program : Pubkey} {account account' : Account}
    {token : TokenAccount} {amount : ℕ} (h : Unpacks program account token)
    (howner : account'.owner = account.owner)
    (hdata : account'.data = putLE account.data 64 8 amount) :
    Unpacks program account' { token with amount := amount % 256 ^ 8 } := by
  refine h.putAmount howner ?_ ?_
  · rw [hdata, putLE_mod]
  · simp only [u64Max]
    omega

/-- A wrapped-SOL account: its balance is backed by lamports. -/
structure Wrapped (program : Pubkey) (account : Account) (token : TokenAccount) : Prop where
  unpacks : Unpacks program account token
  native : token.isNative.isSome = true

/-- A synchronized account still wraps SOL. -/
theorem SyncSpec.wrapped {account : Pubkey} {token : TokenAccount} {reserve : ℕ}
    {bank bank' : Bank} (h : SyncSpec account token reserve bank bank') :
    ∃ synced, Wrapped splTokenId (bank' account) synced := by
  have howner : (bank' account).owner = (bank account).owner := by rw [h.synced]
  have hdata : (bank' account).data =
      putLE (bank account).data 64 8 ((bank account).lamports - reserve) := by rw [h.synced]
  exact ⟨_, h.unpacks.overwritten howner hdata, by simp [h.native_eq]⟩

theorem SyncSpec.lamports_eq {account : Pubkey} {token : TokenAccount} {reserve : ℕ}
    {bank bank' : Bank} (h : SyncSpec account token reserve bank bank') (key : Pubkey) :
    (bank' key).lamports = (bank key).lamports := by
  by_cases hkey : key = account
  · rw [hkey, h.synced]
  · rw [h.frame key hkey]

/-- Wrapped SOL leaves its account with its lamports. -/
theorem tokenTransfer_lamports {program source destination authority : Pubkey}
    {checked : Option (Pubkey × UInt8)} {amount : ℕ} {token : TokenAccount} {bank bank' : Bank}
    (h : tokenTransfer rt program checked source destination authority amount bank = .ok bank')
    (hwrapped : Wrapped program (bank source) token) (hne : source ≠ destination) :
    (bank' source).lamports + amount = (bank source).lamports := by
  simp only [tokenTransfer, bind_eq_ok, check_eq_ok, if_neg hne, pure_eq_ok] at h
  obtain ⟨src, hsrc, _, _, _, _, _, _, _, _, _, _, _, _, _, _, _, hlamports, rfl⟩ := h
  obtain rfl := Except.ok.inj ((unpackTokenAccount_eq_ok.mpr hwrapped.unpacks).symm.trans hsrc)
  have hmoved : nativeLamports token amount = amount := if_pos hwrapped.native
  rw [hmoved] at hlamports
  rw [Function.update_of_ne hne, Function.update_self, debitedAccount, hmoved]
  exact Nat.sub_add_cancel hlamports

/-- The lamports of a closed account go to the destination. -/
theorem CloseSpec.lamports_eq {program account destination : Pubkey} {token : TokenAccount}
    {bank bank' : Bank} (h : CloseSpec program account destination token bank bank') :
    (bank' destination).lamports = (bank destination).lamports + (bank account).lamports ∧
      (bank' account).lamports = 0 := by
  refine ⟨h.refund, ?_⟩
  rw [h.closed]
  rfl

end QuayTitan
