import QuayTitan.Library.Totals
import QuayTitan.Verification.Lamports
import QuayTitan.Verification.TokenFields

/-! # What the calls conserve

Over any set of addresses that holds the accounts of a call, no program makes or loses
lamports, and no token program makes or loses tokens of a mint that is neither wrapped SOL nor
charges for transfers. -/

namespace QuayTitan

open ByteFields Fallible Totals

variable {rt : Runtime} {S : Finset Pubkey} {bank bank' : Bank}

/-! ## Lamports -/

/-- The lamports held at some addresses. -/
def lamportsIn (S : Finset Pubkey) (bank : Bank) : ℕ := ∑ key ∈ S, (bank key).lamports

theorem systemTransfer_lamportsIn {source destination : Pubkey} {lamports : ℕ}
    (h : systemTransfer source destination lamports bank = .ok bank') (hsource : source ∈ S)
    (hdestination : destination ∈ S) : lamportsIn S bank' = lamportsIn S bank := by
  have hspec := systemTransfer_spec h
  by_cases hself : source = destination
  · rw [hspec.self hself]
  · apply sum_eq_of_exchange hsource hdestination hself
    · have hfunds := hspec.funds
      rw [hspec.source_lamports hself, hspec.destination_lamports hself]
      omega
    · intro key hs hd
      rw [hspec.frame key hs hd]

/-- Opening an account moves rent from the payer, also when the payer is that account. -/
theorem createIdempotent_lamportsIn {payer wallet mint account program : Pubkey}
    (h : createIdempotent rt payer wallet mint account program bank = .ok bank')
    (hpayer : payer ∈ S) (haccount : account ∈ S) : lamportsIn S bank' = lamportsIn S bank := by
  simp only [createIdempotent, bind_eq_ok, check_eq_ok] at h
  obtain ⟨_, _, h⟩ := h
  split at h
  · simp only [bind_eq_ok, check_eq_ok, pure_eq_ok] at h
    obtain ⟨_, _, _, _, rfl⟩ := h
    rfl
  · simp only [openAccount, bind_eq_ok, check_eq_ok, pure_eq_ok] at h
    obtain ⟨_, _, _, _, _, _, _, _, funded, hfunded, rfl⟩ := h
    have hopened : lamportsIn S (Function.update funded account (openedAccount rt program wallet
        mint (bank mint).data (funded account).lamports)) = lamportsIn S funded := by
      apply sum_eq_of_kept (a := account)
      · rw [Function.update_self, openedAccount_lamports]
      · intro key hkey
        rw [Function.update_of_ne hkey]
    rw [hopened]
    unfold fundRent at hfunded
    split at hfunded
    · exact systemTransfer_lamportsIn hfunded hpayer haccount
    · rw [pure_eq_ok] at hfunded
      rw [hfunded]

theorem syncNative_lamportsIn {program account : Pubkey}
    (h : syncNative program account bank = .ok bank') :
    lamportsIn S bank' = lamportsIn S bank := by
  obtain ⟨token, reserve, hspec⟩ := syncNative_spec h
  exact Finset.sum_congr rfl fun key _ => hspec.lamports_eq key

/-- The lamports of a wrapped-SOL account move with its balance. -/
theorem tokenTransfer_lamportsIn {program source destination authority : Pubkey}
    {checked : Option (Pubkey × UInt8)} {amount : ℕ}
    (h : tokenTransfer rt program checked source destination authority amount bank = .ok bank')
    (hsource : source ∈ S) (hdestination : destination ∈ S) :
    lamportsIn S bank' = lamportsIn S bank := by
  simp only [tokenTransfer, bind_eq_ok, check_eq_ok] at h
  obtain ⟨src, _, dst, _, _, _, _, _, _, _, fee, _, _, _, h⟩ := h
  split at h
  · rw [pure_eq_ok] at h
    rw [h]
  · rename_i hne
    simp only [bind_eq_ok, check_eq_ok, pure_eq_ok] at h
    obtain ⟨_, _, _, hlamports, rfl⟩ := h
    apply sum_eq_of_exchange hsource hdestination hne
    · rw [Function.update_self, Function.update_of_ne hne, Function.update_self]
      simp only [debitedAccount, creditedAccount]
      omega
    · intro key hs hd
      rw [Function.update_of_ne hd, Function.update_of_ne hs]

theorem CloseSpec.lamportsIn_eq {program account destination : Pubkey} {token : TokenAccount}
    (h : CloseSpec program account destination token bank bank') (haccount : account ∈ S)
    (hdestination : destination ∈ S) : lamportsIn S bank' = lamportsIn S bank := by
  apply sum_eq_of_exchange haccount hdestination h.ne_destination
  · rw [h.lamports_eq.1, h.lamports_eq.2]
    omega
  · intro key ha hd
    rw [h.frame key ha hd]

/-! ## Tokens -/

/-- The tokens of a mint that an account holds. -/
def tokensAt (mint : Pubkey) (account : Account) : ℕ :=
  if (account.owner = splTokenId ∨ account.owner = token2022Id) ∧
      accountLen ≤ account.data.length ∧ getKey account.data 0 = some mint then
    (getLE account.data 64 8).getD 0
  else 0

/-- The tokens of a mint held at some addresses. -/
def tokensIn (S : Finset Pubkey) (mint : Pubkey) (bank : Bank) : ℕ :=
  ∑ key ∈ S, tokensAt mint (bank key)

variable {mint : Pubkey}

theorem tokensAt_of_sameContents {account account' : Account}
    (h : SameContents account account') : tokensAt mint account' = tokensAt mint account := by
  unfold tokensAt
  rw [h.owner_eq, h.data_eq]

theorem tokensAt_of_data_nil {account : Account} (h : account.data = []) :
    tokensAt mint account = 0 := by
  refine if_neg ?_
  rintro ⟨_, hlength, _⟩
  rw [h] at hlength
  exact absurd hlength (by decide)

/-- Only the accounts of a token program hold tokens. -/
theorem tokensAt_unowned {account : Account}
    (h : ¬(account.owner = splTokenId ∨ account.owner = token2022Id)) :
    tokensAt mint account = 0 :=
  if_neg fun hheld => h hheld.1

theorem tokensAt_foreign {account : Account} (h : getKey account.data 0 ≠ some mint) :
    tokensAt mint account = 0 :=
  if_neg fun hmint => h hmint.2.2

theorem Unpacks.tokensAt_eq {program : Pubkey} {account : Account} {token : TokenAccount}
    (h : Unpacks program account token) (hprogram : program = splTokenId ∨ program = token2022Id)
    (hmint : token.mint = mint) : tokensAt mint account = token.amount := by
  obtain ⟨hkey, _, hamount⟩ := readTokenAccount_fields h.read
  rw [tokensAt, if_pos ⟨h.owner_eq ▸ hprogram, h.accountLen_le, hmint ▸ hkey⟩, hamount,
    Option.getD_some]

theorem Unpacks.tokensAt_foreign {program : Pubkey} {account : Account} {token : TokenAccount}
    (h : Unpacks program account token) (hmint : token.mint ≠ mint) :
    tokensAt mint account = 0 := by
  apply QuayTitan.tokensAt_foreign
  rw [(readTokenAccount_fields h.read).1]
  exact fun heq => hmint (Option.some.inj heq)

/-- Tokens written into an account of the mint. -/
theorem Rebalanced.tokensAt_eq {account account' : Account} {amount : ℕ}
    (h : Rebalanced account account' amount)
    (howner : account.owner = splTokenId ∨ account.owner = token2022Id)
    (hmint : getKey account.data 0 = some mint) : tokensAt mint account' = amount := by
  rw [tokensAt, if_pos ⟨h.owner_eq ▸ howner, h.length_le, h.mint_eq.trans hmint⟩, h.amount_eq,
    Option.getD_some]

/-- A token program tags an account as native by its mint. -/
def NativeTagged (account : Account) : Prop :=
  (account.owner = splTokenId ∨ account.owner = token2022Id) →
    accountLen ≤ account.data.length → getLE account.data 109 4 = some 1 →
    getKey account.data 0 = some (nativeMintOf account.owner)

theorem NativeTagged.of_fieldsKept {account account' : Account} (h : NativeTagged account)
    (hkept : FieldsKept account account') : NativeTagged account' := by
  intro howner hlength htag
  rw [hkept.owner_eq] at howner ⊢
  rw [hkept.getLE_eq (.inr (.inl (by decide)))] at htag
  rw [hkept.getKey_eq (.inl (by decide))]
  exact h howner (hkept.length_iff.mp hlength) htag

theorem nativeTagged_of_data_nil {account : Account} (h : account.data = []) :
    NativeTagged account := by
  intro _ hlength
  rw [h] at hlength
  exact absurd hlength (by decide)

theorem unpackCOption_some {α : Type*} {data : Bytes} {offset : ℕ} {value : Option α} {a : α}
    (h : unpackCOption data offset value = some (some a)) : getLE data offset 4 = some 1 := by
  unfold unpackCOption at h
  split at h
  · cases h
  · assumption
  · cases h

/-- A mint whose balances no token program derives from lamports. -/
structure NotWrapped (mint : Pubkey) : Prop where
  spl : mint ≠ nativeMintId
  token2022 : mint ≠ nativeMint2022Id

theorem NotWrapped.ne_nativeMintOf (h : NotWrapped mint) (program : Pubkey) :
    nativeMintOf program ≠ mint := by
  unfold nativeMintOf
  split
  · exact h.token2022.symm
  · exact h.spl.symm

/-- A native account holds no token of another mint. -/
theorem NativeTagged.tokensAt_eq_zero {program : Pubkey} {account : Account}
    {token : TokenAccount} (h : NativeTagged account) (hmint : NotWrapped mint)
    (hunpacks : Unpacks program account token) (hnative : token.isNative.isSome = true) :
    tokensAt mint account = 0 := by
  obtain ⟨reserve, hreserve⟩ := Option.isSome_iff_exists.mp hnative
  have htag : getLE account.data 109 4 = some 1 :=
    unpackCOption_some ((readTokenAccount_options hunpacks.read).2.1.trans
      (congrArg some hreserve))
  by_cases howner : account.owner = splTokenId ∨ account.owner = token2022Id
  · apply tokensAt_foreign
    rw [h howner hunpacks.accountLen_le htag]
    exact fun heq => hmint.ne_nativeMintOf _ (Option.some.inj heq)
  · exact tokensAt_unowned howner

/-! ### Opening -/

theorem newTokenData_untagged {mint wallet : Pubkey} {amount : ℕ} {tail : Bytes} :
    getLE (newTokenData mint wallet amount none tail) 109 4 ≠ some 1 := by
  intro htag
  have hread : readTokenAccount (newTokenData mint wallet amount none tail) =
      some ⟨mint, wallet, amount % 2 ^ 64, none, false, none, 0, none⟩ :=
    readTokenAccount_newTokenData
  have hnative := (readTokenAccount_options hread).2.1
  simp only [unpackCOption, htag, Option.map_eq_some_iff] at hnative
  obtain ⟨_, _, hnone⟩ := hnative
  cases hnone

theorem openedAccount_tagged (program wallet mint : Pubkey) (mintData : Bytes) (lamports : ℕ) :
    NativeTagged (openedAccount rt program wallet mint mintData lamports) := by
  intro howner hlength htag
  rw [openedAccount_owner] at howner ⊢
  unfold openedAccount at hlength htag ⊢
  simp only [if_pos howner] at hlength htag ⊢
  split
  · rename_i hmint
    rw [(readTokenAccount_fields readTokenAccount_newTokenData).1, hmint]
  · rename_i hmint
    rw [if_neg hmint] at htag
    exact absurd htag newTokenData_untagged

/-- A new account holds no token, unless it wraps the lamports it was opened over. -/
theorem openedAccount_tokensAt (hmint : NotWrapped mint) (program wallet other : Pubkey)
    (mintData : Bytes) (lamports : ℕ) :
    tokensAt mint (openedAccount rt program wallet other mintData lamports) = 0 := by
  by_cases hother : other = mint
  · unfold tokensAt
    split
    · rename_i hheld
      rw [openedAccount_owner] at hheld
      have hplain : other ≠ nativeMintOf program := fun heq =>
        hmint.ne_nativeMintOf program (heq.symm.trans hother)
      simp only [openedAccount, if_pos hheld.1, if_neg hplain]
      rw [(readTokenAccount_fields readTokenAccount_newTokenData).2.2]
      rfl
    · rfl
  · unfold tokensAt
    split
    · rename_i hheld
      obtain ⟨howner, _, hkey⟩ := hheld
      rw [openedAccount_owner] at howner
      refine absurd ?_ hother
      simp only [openedAccount, if_pos howner] at hkey
      split at hkey
      all_goals
        rw [(readTokenAccount_fields readTokenAccount_newTokenData).1] at hkey
        exact Option.some.inj hkey
    · rfl

theorem createIdempotent_tagged {payer wallet other account program : Pubkey}
    (h : createIdempotent rt payer wallet other account program bank = .ok bank')
    (htagged : ∀ key, NativeTagged (bank key)) (key : Pubkey) : NativeTagged (bank' key) := by
  cases createIdempotent_spec h with
  | existing _ _ _ _ same => exact same ▸ htagged key
  | fresh opens =>
      by_cases hkey : key = account
      · rw [hkey, opens.opened]
        exact openedAccount_tagged _ _ _ _ _
      · exact (htagged key).of_fieldsKept (opens.contents key hkey).fieldsKept

theorem createIdempotent_tokensIn {payer wallet other account program : Pubkey}
    (h : createIdempotent rt payer wallet other account program bank = .ok bank')
    (hmint : NotWrapped mint) : tokensIn S mint bank' = tokensIn S mint bank := by
  cases createIdempotent_spec h with
  | existing _ _ _ _ same => rw [same]
  | fresh opens =>
      apply sum_eq_of_kept (a := account)
      · rw [opens.opened, openedAccount_tokensAt hmint, tokensAt_of_data_nil opens.data_eq]
      · intro key hkey
        exact tokensAt_of_sameContents (opens.contents key hkey)

/-! ### Wrapping and closing -/

theorem systemTransfer_tokensIn {source destination : Pubkey} {lamports : ℕ}
    (h : systemTransfer source destination lamports bank = .ok bank') :
    tokensIn S mint bank' = tokensIn S mint bank :=
  Finset.sum_congr rfl fun key _ => tokensAt_of_sameContents ((systemTransfer_spec h).contents key)

theorem syncNative_tokensIn {program account : Pubkey}
    (h : syncNative program account bank = .ok bank') (hmint : NotWrapped mint)
    (htagged : ∀ key, NativeTagged (bank key)) : tokensIn S mint bank' = tokensIn S mint bank := by
  obtain ⟨token, reserve, hspec⟩ := syncNative_spec h
  obtain ⟨synced, hsynced⟩ := hspec.wrapped
  apply sum_eq_of_kept (a := account)
  · have hnative : token.isNative.isSome = true := by rw [hspec.native_eq, Option.isSome_some]
    have hafter := (htagged account).of_fieldsKept (syncNative_fieldsKept h account)
    rw [(htagged account).tokensAt_eq_zero hmint hspec.unpacks hnative,
      hafter.tokensAt_eq_zero hmint hsynced.unpacks hsynced.native]
  · intro key hkey
    rw [hspec.frame key hkey]

/-- Only an empty account or one of wrapped SOL is closed. -/
theorem CloseSpec.tokensIn_eq {program account destination : Pubkey} {token : TokenAccount}
    (h : CloseSpec program account destination token bank bank') (hmint : NotWrapped mint)
    (htagged : ∀ key, NativeTagged (bank key)) : tokensIn S mint bank' = tokensIn S mint bank := by
  have hempty : tokensAt mint (bank account) = 0 := by
    rcases h.closable with hnative | hzero
    · exact (htagged account).tokensAt_eq_zero hmint h.unpacks hnative
    · unfold tokensAt
      rw [(readTokenAccount_fields h.unpacks.read).2.2, hzero, Option.getD_some, ite_self]
  apply sum_eq_of_kept (a := account)
  · rw [h.closed, hempty]
    exact tokensAt_of_data_nil rfl
  · intro key hkey
    exact tokensAt_of_sameContents (h.contents key hkey)

theorem CloseSpec.tagged {program account destination : Pubkey} {token : TokenAccount}
    (h : CloseSpec program account destination token bank bank')
    (htagged : ∀ key, NativeTagged (bank key)) (key : Pubkey) : NativeTagged (bank' key) := by
  by_cases hkey : key = account
  · rw [hkey, h.closed]
    exact nativeTagged_of_data_nil rfl
  · exact (htagged key).of_fieldsKept (h.contents key hkey).fieldsKept

/-! ### Transfers -/

/-- Without a fee the destination receives what the source pays. -/
theorem tokenTransfer_tokensIn {program source destination authority : Pubkey}
    {checked : Option (Pubkey × UInt8)} {amount : ℕ}
    (h : tokenTransfer rt program checked source destination authority amount bank = .ok bank')
    (hfee : ∀ amount, rt.transferFee mint amount = 0) (hsource : source ∈ S)
    (hdestination : destination ∈ S) : tokensIn S mint bank' = tokensIn S mint bank := by
  simp only [tokenTransfer, bind_eq_ok, check_eq_ok, unpackTokenAccount_eq_ok] at h
  obtain ⟨src, hsrc, dst, hdst, _, _, _, hfunds, _, hmints, fee, hwithheld, _, _, h⟩ := h
  obtain ⟨hchecked, hfeeEq⟩ := withheldFee_eq hwithheld
  by_cases hself : source = destination
  · rw [if_pos hself, pure_eq_ok] at h
    rw [h]
  · rw [if_neg hself] at h
    simp only [bind_eq_ok, check_eq_ok, pure_eq_ok] at h
    obtain ⟨_, hfit, _, _, rfl⟩ := h
    have hdebit := debitedAccount_rebalanced authority amount hsrc
    have hcredit : Rebalanced (bank destination) (creditedAccount rt (bank destination) dst
        (nativeLamports src amount) amount fee) (dst.amount + (amount - fee)) :=
      creditedAccount_rebalanced _ amount fee hdst hfit
    apply sum_eq_of_exchange hsource hdestination hself
    · rw [Function.update_self, Function.update_of_ne hself, Function.update_self]
      by_cases hprogram : program = splTokenId ∨ program = token2022Id
      swap
      · have hunowned {account : Account} (howner : account.owner = program) :
            tokensAt mint account = 0 := tokensAt_unowned (howner ▸ hprogram)
        rw [hunowned (hdebit.owner_eq.trans hsrc.owner_eq),
          hunowned (hcredit.owner_eq.trans hdst.owner_eq), hunowned hsrc.owner_eq,
          hunowned hdst.owner_eq]
      by_cases hmint : src.mint = mint
      · have hfree : fee = 0 := by
          cases checked with
          | none => exact hfeeEq
          | some c =>
              rw [hfeeEq, Option.elim_some, hchecked c rfl, hmint]
              exact hfee amount
        have hsrcKey := (readTokenAccount_fields hsrc.read).1
        have hdstKey := (readTokenAccount_fields hdst.read).1
        rw [hdebit.tokensAt_eq (hsrc.owner_eq ▸ hprogram) (hmint ▸ hsrcKey),
          hcredit.tokensAt_eq (hdst.owner_eq ▸ hprogram) (hmint ▸ hmints ▸ hdstKey),
          hsrc.tokensAt_eq hprogram hmint, hdst.tokensAt_eq hprogram (hmints ▸ hmint), hfree]
        omega
      · have hforeign : some src.mint ≠ some mint := fun heq => hmint (Option.some.inj heq)
        have hsrcKey := (readTokenAccount_fields hsrc.read).1
        have hdstKey := (readTokenAccount_fields hdst.read).1
        rw [hsrc.tokensAt_foreign hmint, hdst.tokensAt_foreign (hmints ▸ hmint),
          tokensAt_foreign (hdebit.mint_eq.trans hsrcKey ▸ hforeign),
          tokensAt_foreign (hcredit.mint_eq.trans hdstKey ▸ hmints ▸ hforeign)]
    · intro key hs hd
      rw [Function.update_of_ne hd, Function.update_of_ne hs]

end QuayTitan
