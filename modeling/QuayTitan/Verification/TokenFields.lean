import QuayTitan.Verification.Token

/-! # The fields a token program leaves in place

A transfer writes balances and allowances. The mint, the owner, the wrapped-SOL tag and the
close authority of an account stay as they are, and so does the absence of a delegate. -/

namespace QuayTitan

open ByteFields Fallible

variable {rt : Runtime} {bank bank' : Bank}

/-- The byte ranges of an account that neither a balance nor an allowance covers. -/
def Unwritten (offset width : ℕ) : Prop :=
  offset + width ≤ 64 ∨ (76 ≤ offset ∧ offset + width ≤ 121) ∨
    (129 ≤ offset ∧ offset + width ≤ accountLen)

structure FieldsKept (account account' : Account) : Prop where
  owner_eq : account'.owner = account.owner
  length_iff : accountLen ≤ account'.data.length ↔ accountLen ≤ account.data.length
  field_eq : ∀ offset width, Unwritten offset width →
    getField account'.data offset width = getField account.data offset width
  undelegated : getLE account.data 72 4 = some 0 → getLE account'.data 72 4 = some 0

theorem SameContents.fieldsKept {account account' : Account} (h : SameContents account account') :
    FieldsKept account account' := by
  refine ⟨h.owner_eq, by rw [h.data_eq], fun _ _ _ => by rw [h.data_eq], fun htag => ?_⟩
  rwa [h.data_eq]

theorem FieldsKept.getKey_eq {account account' : Account} (h : FieldsKept account account')
    {offset : ℕ} (hoffset : Unwritten offset 32) :
    getKey account'.data offset = getKey account.data offset := by
  rw [getKey, getKey, h.field_eq offset 32 hoffset]

theorem FieldsKept.getLE_eq {account account' : Account} (h : FieldsKept account account')
    {offset width : ℕ} (hoffset : Unwritten offset width) :
    getLE account'.data offset width = getLE account.data offset width := by
  rw [getLE, getLE, h.field_eq offset width hoffset]

/-! ## Optional fields -/

theorem unpackCOption_zero {α : Type*} {data : Bytes} {offset : ℕ} {value : Option α}
    (h : getLE data offset 4 = some 0) : unpackCOption data offset value = some none := by
  simp only [unpackCOption, h]

theorem readTokenAccount_options {data : Bytes} {token : TokenAccount}
    (h : readTokenAccount data = some token) :
    unpackCOption data 72 (getKey data 76) = some token.delegate ∧
      unpackCOption data 109 (getLE data 113 8) = some token.isNative ∧
      unpackCOption data 129 (getKey data 133) = some token.closeAuthority := by
  simp only [readTokenAccount, Option.bind_eq_bind, Option.bind_eq_some_iff] at h
  obtain ⟨_, _, _, _, _, _, delegate, hdelegate, state, _, isNative, hnative, _, _, closeAuthority,
    hclose, h⟩ := h
  split at h
  · obtain rfl := Option.some.inj h
    exact ⟨hdelegate, hnative, hclose⟩
  · cases h

theorem Unpacks.delegate_eq_none {program : Pubkey} {account : Account} {token : TokenAccount}
    (h : Unpacks program account token) (htag : getLE account.data 72 4 = some 0) :
    token.delegate = none := by
  have hdelegate := (readTokenAccount_options h.read).1
  rw [unpackCOption_zero htag] at hdelegate
  exact (Option.some.inj hdelegate).symm

theorem Unpacks.closeAuthority_eq_none {program : Pubkey} {account : Account}
    {token : TokenAccount} (h : Unpacks program account token)
    (htag : getLE account.data 129 4 = some 0) : token.closeAuthority = none := by
  have hclose := (readTokenAccount_options h.read).2.2
  rw [unpackCOption_zero htag] at hclose
  exact (Option.some.inj hclose).symm

/-! ## Transfers -/

/-- A balance is written to its own eight bytes. -/
theorem getField_putAmount {data : Bytes} {offset width : ℕ} (amount : ℕ)
    (hlength : accountLen ≤ data.length) (hrange : Unwritten offset width ∨ offset = 72) :
    getField (putLE data 64 8 amount) offset width = getField data offset width := by
  have hlen : 165 ≤ data.length := hlength
  apply getField_putLE_of_disjoint _ (by omega)
  simp only [Unwritten] at hrange
  omega

theorem spendAllowance_undelegated {token : TokenAccount} {data : Bytes} (authority : Pubkey)
    (amount : ℕ) (h : token.delegate = none) :
    spendAllowance token authority amount data = data := by
  simp [spendAllowance, h]

theorem getField_spendAllowance_unwritten (token : TokenAccount) (authority : Pubkey)
    (amount : ℕ) {data : Bytes} {offset width : ℕ} (hlength : accountLen ≤ data.length)
    (hrange : Unwritten offset width) :
    getField (spendAllowance token authority amount data) offset width =
      getField data offset width := by
  have hlen : 165 ≤ data.length := hlength
  have hspent (left : ℕ) : (putLE data 121 8 left).length = data.length :=
    length_putLE left (by omega)
  simp only [Unwritten] at hrange
  unfold spendAllowance
  split
  · simp only
    split
    · rw [getField_putLE_of_disjoint _ (by rw [hspent]; omega) (by omega),
        getField_putLE_of_disjoint _ (by omega) (by omega)]
    · rw [getField_putLE_of_disjoint _ (by omega) (by omega)]
  · rfl

theorem debitedAccount_fieldsKept {program : Pubkey} {account : Account} {token : TokenAccount}
    (authority : Pubkey) (amount : ℕ) (h : Unpacks program account token) :
    FieldsKept account (debitedAccount account token authority amount) := by
  have hlength := h.accountLen_le
  have hspent : accountLen ≤ (spendAllowance token authority amount account.data).length := by
    rwa [length_spendAllowance _ _ _ hlength]
  refine ⟨rfl, iff_of_true (debitedAccount_rebalanced authority amount h).length_le hlength,
    fun offset width hrange => ?_, fun htag => ?_⟩
  · simp only [debitedAccount]
    rw [getField_putAmount _ hspent (.inl hrange),
      getField_spendAllowance_unwritten _ _ _ hlength hrange]
  · simp only [debitedAccount]
    rw [getLE, getField_putAmount _ hspent (.inr rfl),
      spendAllowance_undelegated _ _ (h.delegate_eq_none htag)]
    exact htag

theorem creditedAccount_fieldsKept {program : Pubkey} {account : Account} {token : TokenAccount}
    (lamports amount fee : ℕ) (h : Unpacks program account token)
    (hfit : token.amount + (amount - fee) ≤ u64Max) :
    FieldsKept account (creditedAccount rt account token lamports amount fee) := by
  have hlength := h.accountLen_le
  have hpaid : accountLen ≤ (putLE account.data 64 8 (token.amount + (amount - fee))).length := by
    have hlen : 165 ≤ account.data.length := hlength
    rwa [length_putLE _ (by omega)]
  have hfield {offset width : ℕ} (hin : offset + width ≤ accountLen) :
      getField (creditedAccount rt account token lamports amount fee).data offset width =
        getField (putLE account.data 64 8 (token.amount + (amount - fee))) offset width := by
    by_cases hfee : fee = 0
    · simp only [creditedAccount, hfee, if_true]
    · simp only [creditedAccount, hfee, if_false]
      exact getField_take _ hin hpaid
  have hbase : accountLen = 165 := rfl
  refine ⟨rfl, iff_of_true
    (creditedAccount_rebalanced lamports amount fee h hfit).length_le hlength,
    fun offset width hrange => ?_, fun htag => ?_⟩
  · have hin : offset + width ≤ accountLen := by
      simp only [Unwritten] at hrange
      omega
    rw [hfield hin, getField_putAmount _ hlength (.inl hrange)]
  · rw [getLE, hfield (by decide), getField_putAmount _ hlength (.inr rfl)]
    exact htag

/-- A transfer keeps those fields in every account, its own two included. -/
theorem tokenTransfer_fieldsKept {program source destination authority : Pubkey}
    {checked : Option (Pubkey × UInt8)} {amount : ℕ}
    (h : tokenTransfer rt program checked source destination authority amount bank = .ok bank')
    (key : Pubkey) : FieldsKept (bank key) (bank' key) := by
  simp only [tokenTransfer, bind_eq_ok, check_eq_ok, unpackTokenAccount_eq_ok] at h
  obtain ⟨src, hsrc, dst, hdst, _, _, _, _, _, _, fee, _, _, _, h⟩ := h
  by_cases hself : source = destination
  · rw [if_pos hself, pure_eq_ok] at h
    exact h ▸ (SameContents.refl _).fieldsKept
  · rw [if_neg hself] at h
    simp only [bind_eq_ok, check_eq_ok, pure_eq_ok] at h
    obtain ⟨_, hfit, _, _, rfl⟩ := h
    by_cases hdestination : key = destination
    · subst hdestination
      rw [Function.update_self]
      exact creditedAccount_fieldsKept _ amount fee hdst hfit
    · rw [Function.update_of_ne hdestination]
      by_cases hsource : key = source
      · subst hsource
        rw [Function.update_self]
        exact debitedAccount_fieldsKept authority amount hsrc
      · rw [Function.update_of_ne hsource]
        exact (SameContents.refl _).fieldsKept

theorem syncNative_fieldsKept {program account : Pubkey}
    (h : syncNative program account bank = .ok bank') (key : Pubkey) :
    FieldsKept (bank key) (bank' key) := by
  obtain ⟨token, reserve, hspec⟩ := syncNative_spec h
  by_cases hkey : key = account
  · subst hkey
    have hlength := hspec.unpacks.accountLen_le
    have hlen : 165 ≤ (bank key).data.length := hlength
    rw [hspec.synced]
    refine ⟨rfl, ?_, fun offset width hrange => ?_, fun htag => ?_⟩
    · rw [length_putLE _ (by omega)]
    · exact getField_putAmount _ hlength (.inl hrange)
    · rw [getLE, getField_putAmount _ hlength (.inr rfl)]
      exact htag
  · rw [hspec.frame key hkey]
    exact (SameContents.refl _).fieldsKept

end QuayTitan
