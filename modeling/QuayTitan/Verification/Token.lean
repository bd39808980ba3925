import QuayTitan.Library.Fallible
import QuayTitan.Model.Token

/-! # Effects of the token, associated-token and system calls -/

namespace QuayTitan

open ByteFields Fallible

variable {rt : Runtime}

theorem check_eq_ok {ε : Type*} {condition : Prop} [Decidable condition] {error : ε}
    {u : Unit} : check condition error = .ok u ↔ condition := by
  by_cases h : condition <;> simp [check, h]

/-! ## Reading a token account -/

theorem readTokenAccount_fields {data : Bytes} {token : TokenAccount}
    (h : readTokenAccount data = some token) :
    getKey data 0 = some token.mint ∧ getKey data 32 = some token.owner ∧
      getLE data 64 8 = some token.amount := by
  simp only [readTokenAccount, Option.bind_eq_bind, Option.bind_eq_some_iff] at h
  obtain ⟨mint, hmint, owner, howner, amount, hamount, _, _, _, _, _, _, _, _, _, _, h⟩ := h
  split at h
  · obtain rfl := Option.some.inj h
    exact ⟨hmint, howner, hamount⟩
  · cases h

/-- What `unpackTokenAccount` establishes about an account. -/
structure Unpacks (program : Pubkey) (account : Account) (token : TokenAccount) : Prop where
  owner_eq : account.owner = program
  shape : hasAccountShape account.data = true
  length_eq : program = token2022Id ∨ account.data.length = accountLen
  read : readTokenAccount account.data = some token

theorem unpackTokenAccount_eq_ok {program : Pubkey} {account : Account}
    {token : TokenAccount} :
    unpackTokenAccount program account = .ok token ↔ Unpacks program account token := by
  simp only [unpackTokenAccount, bind_eq_ok, check_eq_ok]
  constructor
  · rintro ⟨_, howner, _, hshape, h⟩
    split at h
    · rename_i read hread
      obtain rfl := Except.ok.inj h
      exact ⟨howner, hshape.1, hshape.2, hread⟩
    · cases h
  · intro h
    refine ⟨(), h.owner_eq, (), ⟨h.shape, h.length_eq⟩, ?_⟩
    rw [h.read]

theorem Unpacks.accountLen_le {program : Pubkey} {account : Account} {token : TokenAccount}
    (h : Unpacks program account token) : accountLen ≤ account.data.length := by
  have hshape := h.shape
  simp only [hasAccountShape, Bool.or_eq_true, Bool.and_eq_true, decide_eq_true_eq] at hshape
  omega

theorem Unpacks.amount_le {program : Pubkey} {account : Account} {token : TokenAccount}
    (h : Unpacks program account token) : token.amount ≤ u64Max := by
  have hlt := getLE_lt (readTokenAccount_fields h.read).2.2
  simp only [u64Max]
  omega

/-! ## Accounts up to their lamports -/

/-- Two accounts that differ at most in their lamports. -/
structure SameContents (account account' : Account) : Prop where
  data_eq : account'.data = account.data
  owner_eq : account'.owner = account.owner

theorem SameContents.refl (account : Account) : SameContents account account := ⟨rfl, rfl⟩

theorem SameContents.trans {a b c : Account} (h : SameContents a b) (h' : SameContents b c) :
    SameContents a c :=
  ⟨h'.data_eq.trans h.data_eq, h'.owner_eq.trans h.owner_eq⟩

/-! ## System transfers -/

/-- A transfer of lamports changes no data; both parties may be one account. -/
structure SystemTransferSpec (source destination : Pubkey) (lamports : ℕ)
    (bank bank' : Bank) : Prop where
  source_owner : (bank source).owner = systemProgramId
  source_data : (bank source).data = []
  funds : lamports ≤ (bank source).lamports
  contents : ∀ key, SameContents (bank key) (bank' key)
  frame : ∀ key, key ≠ source → key ≠ destination → bank' key = bank key
  source_lamports : source ≠ destination →
    (bank' source).lamports = (bank source).lamports - lamports
  destination_lamports : source ≠ destination →
    (bank' destination).lamports = (bank destination).lamports + lamports
  self : source = destination → bank' = bank

theorem systemTransfer_spec {source destination : Pubkey} {lamports : ℕ} {bank bank' : Bank}
    (h : systemTransfer source destination lamports bank = .ok bank') :
    SystemTransferSpec source destination lamports bank bank' := by
  simp only [systemTransfer, bind_eq_ok, check_eq_ok, pure_eq_ok] at h
  obtain ⟨_, ⟨howner, hdata⟩, _, hfunds, rfl⟩ := h
  refine ⟨howner, hdata, hfunds, ?_, ?_, ?_, ?_, ?_⟩
  · intro key
    by_cases hd : key = destination
    · subst hd
      by_cases hs : key = source
      · subst hs
        simp only [Function.update_self]
        exact ⟨rfl, rfl⟩
      · simp [hs]
        exact ⟨rfl, rfl⟩
    · rw [Function.update_of_ne hd]
      by_cases hs : key = source
      · subst hs
        simp
        exact ⟨rfl, rfl⟩
      · rw [Function.update_of_ne hs]
        exact SameContents.refl _
  · intro key hs hd
    rw [Function.update_of_ne hd, Function.update_of_ne hs]
  · intro hne
    simp [Function.update_of_ne hne]
  · intro hne
    simp [Function.update_of_ne hne.symm]
  · rintro rfl
    funext key
    by_cases hs : key = source
    · subst hs
      simp [Nat.sub_add_cancel hfunds]
    · simp [hs]

/-! ## Token transfers -/

/-- An account that was given a new balance and kept its mint, authority and program. -/
structure Rebalanced (account account' : Account) (amount : ℕ) : Prop where
  owner_eq : account'.owner = account.owner
  length_le : accountLen ≤ account'.data.length
  mint_eq : getKey account'.data 0 = getKey account.data 0
  authority_eq : getKey account'.data 32 = getKey account.data 32
  amount_eq : getLE account'.data 64 8 = some amount

theorem Rebalanced.trans {a b c : Account} {amount amount' : ℕ} (h : Rebalanced a b amount)
    (h' : Rebalanced b c amount') : Rebalanced a c amount' where
  owner_eq := h'.owner_eq.trans h.owner_eq
  length_le := h'.length_le
  mint_eq := h'.mint_eq.trans h.mint_eq
  authority_eq := h'.authority_eq.trans h.authority_eq
  amount_eq := h'.amount_eq

theorem length_spendAllowance (token : TokenAccount) (authority : Pubkey) (amount : ℕ)
    {data : Bytes} (h : accountLen ≤ data.length) :
    (spendAllowance token authority amount data).length = data.length := by
  have hlen : 165 ≤ data.length := h
  unfold spendAllowance
  split
  · simp only
    split
    · rw [length_putLE, length_putLE]
      · omega
      · rw [length_putLE] <;> omega
    · rw [length_putLE]
      omega
  · rfl

/-- Spending an allowance leaves the mint, the owner and the amount in place. -/
theorem getField_spendAllowance {token : TokenAccount} {authority : Pubkey} {amount : ℕ}
    {data : Bytes} (h : accountLen ≤ data.length) {offset width : ℕ}
    (hbelow : offset + width ≤ 72) :
    getField (spendAllowance token authority amount data) offset width =
      getField data offset width := by
  have hlen : 165 ≤ data.length := h
  have hspent (left : ℕ) : (putLE data 121 8 left).length = data.length :=
    length_putLE left (by omega)
  unfold spendAllowance
  split
  · simp only
    split
    · rw [getField_putLE_of_disjoint _ (by rw [hspent]; omega) (by omega),
        getField_putLE_of_disjoint _ (by omega) (by omega)]
    · rw [getField_putLE_of_disjoint _ (by omega) (by omega)]
  · rfl

theorem debitedAccount_rebalanced {program : Pubkey} {account : Account}
    {token : TokenAccount} (authority : Pubkey) (amount : ℕ)
    (h : Unpacks program account token) :
    Rebalanced account (debitedAccount account token authority amount)
      (token.amount - amount) := by
  have hlen := h.accountLen_le
  have hspent := length_spendAllowance token authority amount hlen
  have hfit : 165 ≤ (spendAllowance token authority amount account.data).length := by
    rw [hspent]
    exact hlen
  have hamount := h.amount_le
  simp only [u64Max] at hamount
  refine ⟨rfl, ?_, ?_, ?_, ?_⟩
  · rw [debitedAccount, length_putLE _ (by omega), hspent]
    exact hlen
  · rw [debitedAccount, getKey_putLE_of_disjoint _ (by omega) (by omega), getKey,
      getField_spendAllowance hlen (by omega), getKey]
  · rw [debitedAccount, getKey_putLE_of_disjoint _ (by omega) (by omega), getKey,
      getField_spendAllowance hlen (by omega), getKey]
  · exact getLE_putLE_same (by omega) (by omega)

theorem getField_take {data : Bytes} {offset width bound : ℕ} (rest : Bytes)
    (hbound : offset + width ≤ bound) (h : bound ≤ data.length) :
    getField (data.take bound ++ rest) offset width = getField data offset width := by
  have htake : (data.take bound).length = bound := by simp; omega
  rw [getField_eq_some (by rw [List.length_append, htake]; omega),
    getField_eq_some (by omega), List.drop_append_of_le_length (by omega),
    List.take_append_of_le_length (by rw [List.length_drop, htake]; omega),
    List.drop_take, List.take_take, Nat.min_eq_left (by omega)]

theorem creditedAccount_rebalanced {program : Pubkey} {account : Account}
    {token : TokenAccount} (lamports amount fee : ℕ) (h : Unpacks program account token)
    (hfit : token.amount + (amount - fee) ≤ u64Max) :
    Rebalanced account (creditedAccount rt account token lamports amount fee)
      (token.amount + (amount - fee)) := by
  have hlen : 165 ≤ account.data.length := h.accountLen_le
  simp only [u64Max] at hfit
  have hpaid : (putLE account.data 64 8 (token.amount + (amount - fee))).length =
      account.data.length := length_putLE _ (by omega)
  have hfield {offset width : ℕ} (hin : offset + width ≤ accountLen) :
      getField (creditedAccount rt account token lamports amount fee).data offset width =
        getField (putLE account.data 64 8 (token.amount + (amount - fee))) offset width := by
    by_cases hfee : fee = 0
    · simp only [creditedAccount, hfee, if_true]
    · simp only [creditedAccount, hfee, if_false]
      exact getField_take _ hin (by rw [hpaid]; exact hlen)
  refine ⟨rfl, ?_, ?_, ?_, ?_⟩
  · by_cases hfee : fee = 0
    · simp only [creditedAccount, hfee, if_true]
      rw [length_putLE _ (by omega)]
      exact hlen
    · simp only [creditedAccount, hfee, if_false, List.length_append, List.length_take, hpaid]
      have : accountLen = 165 := rfl
      omega
  · rw [getKey, hfield (by decide), ← getKey, getKey_putLE_of_disjoint _ (by omega) (by omega)]
  · rw [getKey, hfield (by decide), ← getKey, getKey_putLE_of_disjoint _ (by omega) (by omega)]
  · rw [getLE, hfield (by decide), ← getLE, getLE_putLE_same (by omega) (by omega)]

/-- The effect of a transfer of `amount`, of which `fee` is withheld. -/
structure TransferSpec (program source destination authority : Pubkey)
    (amount fee : ℕ) (src dst : TokenAccount) (bank bank' : Bank) : Prop where
  source_unpacks : Unpacks program (bank source) src
  destination_unpacks : Unpacks program (bank destination) dst
  funds : amount ≤ src.amount
  mint_eq : src.mint = dst.mint
  authorized : src.delegate = some authority ∨ src.owner = authority
  frame : ∀ key, key ≠ source → key ≠ destination → bank' key = bank key
  self : source = destination → bank' = bank
  debit : source ≠ destination →
    Rebalanced (bank source) (bank' source) (src.amount - amount)
  credit : source ≠ destination →
    Rebalanced (bank destination) (bank' destination) (dst.amount + (amount - fee))

theorem withheldFee_eq {checked : Option (Pubkey × UInt8)} {source : TokenAccount}
    {sourceData destinationData : Bytes} {amount fee : ℕ} {bank : Bank}
    (h : withheldFee rt checked source sourceData destinationData amount bank = .ok fee) :
    (∀ c ∈ checked, c.1 = source.mint) ∧
      fee = checked.elim 0 fun c => rt.transferFee c.1 amount := by
  cases checked with
  | none => exact ⟨by simp, (pure_eq_ok.mp h).symm⟩
  | some pair =>
      obtain ⟨mint, decimals⟩ := pair
      simp only [withheldFee, bind_eq_ok, check_eq_ok, pure_eq_ok] at h
      obtain ⟨_, rfl, _, _, _, _, _, _, rfl⟩ := h
      exact ⟨by simp, rfl⟩

theorem authorizeTransfer_ok {program authority : Pubkey} {source : TokenAccount}
    {amount : ℕ} {bank : Bank} {u : Unit}
    (h : authorizeTransfer program source authority amount bank = .ok u) :
    source.delegate = some authority ∨ source.owner = authority := by
  unfold authorizeTransfer at h
  split at h
  · rename_i hdelegate
    exact .inl hdelegate
  · exact .inr (check_eq_ok.mp h).1

theorem tokenTransfer_spec {program source destination authority : Pubkey}
    {checked : Option (Pubkey × UInt8)} {amount : ℕ} {bank bank' : Bank}
    (h : tokenTransfer rt program checked source destination authority amount bank =
      .ok bank') :
    ∃ src dst fee, (fee = checked.elim 0 fun c => rt.transferFee c.1 amount) ∧
      TransferSpec program source destination authority amount fee src dst bank bank' := by
  simp only [tokenTransfer, bind_eq_ok, check_eq_ok, unpackTokenAccount_eq_ok] at h
  obtain ⟨src, hsrc, dst, hdst, _, _, _, hfunds, _, hmint, fee, hfee, _, hauthority, h⟩ := h
  obtain ⟨_, hfeeEq⟩ := withheldFee_eq hfee
  refine ⟨src, dst, fee, hfeeEq, ?_⟩
  by_cases hself : source = destination
  · rw [if_pos hself, pure_eq_ok] at h
    subst h
    exact ⟨hsrc, hdst, hfunds, hmint, authorizeTransfer_ok hauthority,
      fun _ _ _ => rfl, fun _ => rfl, fun hne => (hne hself).elim,
      fun hne => (hne hself).elim⟩
  · rw [if_neg hself] at h
    simp only [bind_eq_ok, check_eq_ok, pure_eq_ok] at h
    obtain ⟨_, hfit, _, _, rfl⟩ := h
    refine ⟨hsrc, hdst, hfunds, hmint, authorizeTransfer_ok hauthority, ?_,
      fun heq => (hself heq).elim, fun _ => ?_, fun _ => ?_⟩
    · intro key hs hd
      rw [Function.update_of_ne hd, Function.update_of_ne hs]
    · rw [Function.update_of_ne hself, Function.update_self]
      exact debitedAccount_rebalanced authority amount hsrc
    · rw [Function.update_self]
      exact creditedAccount_rebalanced _ amount fee hdst hfit

/-! ## Closing and synchronizing -/

/-- Closing frees the address; of the other accounts only lamports change. -/
structure CloseSpec (program account destination : Pubkey) (token : TokenAccount)
    (bank bank' : Bank) : Prop where
  unpacks : Unpacks program (bank account) token
  closable : token.isNative.isSome ∨ token.amount = 0
  ne_destination : account ≠ destination
  closed : bank' account = .absent
  contents : ∀ key, key ≠ account → SameContents (bank key) (bank' key)
  frame : ∀ key, key ≠ account → key ≠ destination → bank' key = bank key
  refund : (bank' destination).lamports =
    (bank destination).lamports + (bank account).lamports

theorem tokenClose_spec {program account destination authority : Pubkey} {bank bank' : Bank}
    (h : tokenClose rt program account destination authority bank = .ok bank') :
    ∃ token, CloseSpec program account destination token bank bank' := by
  simp only [tokenClose, bind_eq_ok, check_eq_ok, pure_eq_ok, unpackTokenAccount_eq_ok] at h
  obtain ⟨_, _, _, hne, token, htoken, _, hclosable, _, _, _, _, rfl⟩ := h
  refine ⟨token, htoken, hclosable, hne, by simp, ?_, ?_, ?_⟩
  · intro key hkey
    rw [Function.update_of_ne hkey]
    by_cases hd : key = destination
    · subst hd
      rw [Function.update_self]
      exact ⟨rfl, rfl⟩
    · rw [Function.update_of_ne hd]
      exact SameContents.refl _
  · intro key hkey hd
    rw [Function.update_of_ne hkey, Function.update_of_ne hd]
  · rw [Function.update_of_ne hne.symm, Function.update_self]

/-- The balance of a wrapped-SOL account is what it holds above its reserve. -/
structure SyncSpec (account : Pubkey) (token : TokenAccount) (reserve : ℕ) (bank bank' : Bank) :
    Prop where
  unpacks : Unpacks splTokenId (bank account) token
  native_eq : token.isNative = some reserve
  covered : reserve + token.amount ≤ (bank account).lamports
  synced : bank' account =
    { bank account with
      data := putLE (bank account).data 64 8 ((bank account).lamports - reserve) }
  frame : ∀ key, key ≠ account → bank' key = bank key

theorem syncNative_spec {program account : Pubkey} {bank bank' : Bank}
    (h : syncNative program account bank = .ok bank') :
    ∃ token reserve, SyncSpec account token reserve bank bank' := by
  simp only [syncNative, bind_eq_ok, check_eq_ok, unpackTokenAccount_eq_ok] at h
  obtain ⟨_, rfl, token, htoken, h⟩ := h
  split at h
  · cases h
  · rename_i reserve hnative
    simp only [bind_eq_ok, check_eq_ok, pure_eq_ok] at h
    obtain ⟨_, hreserve, _, hcovered, rfl⟩ := h
    exact ⟨token, reserve, htoken, hnative, by omega, Function.update_self ..,
      fun key hkey => Function.update_of_ne hkey ..⟩

theorem SyncSpec.data_ne_nil {account : Pubkey} {token : TokenAccount} {reserve : ℕ}
    {bank bank' : Bank} (h : SyncSpec account token reserve bank bank') :
    (bank' account).data ≠ [] := by
  have hlen : 165 ≤ (bank account).data.length := h.unpacks.accountLen_le
  rw [h.synced]
  apply List.ne_nil_of_length_pos
  rw [length_putLE _ (by omega)]
  omega

/-! ## Opening an associated token account -/

section NewTokenData

variable {mint wallet : Pubkey} {amount : ℕ} {isNative : Option ℕ} {tail : Bytes}

@[simp] theorem length_packNative (isNative : Option ℕ) : (packNative isNative).length = 12 := by
  cases isNative <;> simp [packNative]

theorem length_newTokenData :
    (newTokenData mint wallet amount isNative tail).length = accountLen + tail.length := by
  have hlen : accountLen = 165 := rfl
  simp [newTokenData, hlen]
  omega

/-- Where the account type of a new token account is. -/
theorem getElem?_newTokenData :
    (newTokenData mint wallet amount isNative tail)[accountLen]? = tail[0]? := by
  simp [newTokenData, accountLen, List.getElem?_append_right]

/-- A new account reads back as initialized, without delegate or close authority. -/
theorem readTokenAccount_newTokenData :
    readTokenAccount (newTokenData mint wallet amount isNative tail) =
      some ⟨mint, wallet, amount % 2 ^ 64, none, false, isNative.map (· % 2 ^ 64), 0, none⟩ := by
  have hmint : getKey (newTokenData mint wallet amount isNative tail) 0 = some mint := by
    simp [getKey, newTokenData, getField_append_left, getField_self]
  have hwallet : getKey (newTokenData mint wallet amount isNative tail) 32 = some wallet := by
    simp [getKey, newTokenData, getField_append_left, getField_append_right, getField_self]
  have hamount : getLE (newTokenData mint wallet amount isNative tail) 64 8 =
      some (amount % 2 ^ 64) := by
    simp [getLE, newTokenData, getField_append_left, getField_append_right, getField_self,
      leNat_leBytes]
  have hdelegate (value : Option Pubkey) :
      unpackCOption (newTokenData mint wallet amount isNative tail) 72 value = some none := by
    simp [unpackCOption, getLE, newTokenData, getField_append_left, getField_append_right,
      getField_zeros, leNat_zeros]
  have hstate : (newTokenData mint wallet amount isNative tail)[108]? = some 1 := by
    simp [newTokenData, List.getElem?_append_right]
  have hnative : unpackCOption (newTokenData mint wallet amount isNative tail) 109
      (getLE (newTokenData mint wallet amount isNative tail) 113 8) =
        some (isNative.map (· % 2 ^ 64)) := by
    cases isNative with
    | none =>
        simp [unpackCOption, getLE, newTokenData, packNative, getField_append_left,
          getField_append_right, getField_cons, getField_zeros, leNat_zeros]
    | some reserve =>
        simp [unpackCOption, getLE, newTokenData, packNative, getField_append_left,
          getField_append_right, getField_cons, getField_self, leNat_leBytes]
  have hdelegated : getLE (newTokenData mint wallet amount isNative tail) 121 8 = some 0 := by
    simp [getLE, newTokenData, getField_append_left, getField_append_right, getField_cons,
      getField_zeros, leNat_zeros]
  have hclose (value : Option Pubkey) :
      unpackCOption (newTokenData mint wallet amount isNative tail) 129 value = some none := by
    simp [unpackCOption, getLE, newTokenData, getField_append_left, getField_append_right,
      getField_cons, getField_zeros, leNat_zeros]
  simp [readTokenAccount, hmint, hwallet, hamount, hdelegate, hstate, hnative, hdelegated,
    hclose]

end NewTokenData

/-- Rent is paid to the new account; the payer only loses lamports. -/
structure FundSpec (payer account : Pubkey) (shortfall : ℕ) (bank bank' : Bank) : Prop where
  contents : ∀ key, SameContents (bank key) (bank' key)
  frame : ∀ key, key ≠ payer → key ≠ account → bank' key = bank key
  lamports_le : ∀ key, key ≠ account → (bank' key).lamports ≤ (bank key).lamports
  paid : shortfall ≤ (bank payer).lamports ∨ shortfall = 0
  received : payer ≠ account →
    (bank' account).lamports = (bank account).lamports + shortfall

theorem fundRent_spec {payer account : Pubkey} {shortfall : ℕ} {bank bank' : Bank}
    (h : fundRent payer account shortfall bank = .ok bank') :
    FundSpec payer account shortfall bank bank' := by
  unfold fundRent at h
  split at h
  · have hspec := systemTransfer_spec h
    refine ⟨hspec.contents, hspec.frame, fun key hkey => ?_, .inl hspec.funds,
      hspec.destination_lamports⟩
    by_cases hpayer : key = payer
    · subst hpayer
      rw [hspec.source_lamports hkey]
      exact Nat.sub_le _ _
    · rw [hspec.frame key hpayer hkey]
  · rename_i hzero
    rw [pure_eq_ok] at h
    subst h
    exact ⟨fun _ => SameContents.refl _, fun _ _ _ => rfl, fun _ _ => le_rfl,
      .inr (by omega), fun _ => by omega⟩

/-- A fresh address that became a token account. -/
structure OpenSpec (rt : Runtime) (payer wallet mint account program : Pubkey)
    (bank bank' : Bank) : Prop where
  owner_eq : (bank account).owner = systemProgramId
  data_eq : (bank account).data = []
  program_ne : program ≠ systemProgramId
  mint_ok : program = splTokenId ∨ program = token2022Id →
    (bank mint).owner = program ∧
      ∃ decimals, unpackMintDecimals (bank mint).data = .ok decimals
  opened : bank' account =
    openedAccount rt program wallet mint (bank mint).data (bank' account).lamports
  contents : ∀ key, key ≠ account → SameContents (bank key) (bank' key)
  frame : ∀ key, key ≠ account → key ≠ payer → bank' key = bank key
  lamports_le : ∀ key, key ≠ account → (bank' key).lamports ≤ (bank key).lamports
  paid : rentShortfall rt (bank' account).data.length (bank account).lamports ≤
      (bank payer).lamports ∨
    rentShortfall rt (bank' account).data.length (bank account).lamports = 0
  received : payer ≠ account → (bank' account).lamports = (bank account).lamports +
    rentShortfall rt (bank' account).data.length (bank account).lamports

/-- Either the account was already the wallet's, or a fresh address became one. -/
inductive CreateSpec (rt : Runtime) (payer wallet mint account program : Pubkey)
    (bank bank' : Bank) : Prop
  | existing (token : TokenAccount) (unpacks : Unpacks program (bank account) token)
      (owner_eq : token.owner = wallet) (mint_eq : token.mint = mint) (same : bank' = bank)
  | fresh (opens : OpenSpec rt payer wallet mint account program bank bank')

theorem openedAccount_lamports (program wallet mint : Pubkey) (mintData : Bytes)
    (lamports : ℕ) :
    (openedAccount rt program wallet mint mintData lamports).lamports = lamports := by
  simp only [openedAccount]
  split
  · split <;> rfl
  · rfl

theorem openedAccount_owner (program wallet mint : Pubkey) (mintData : Bytes)
    (lamports : ℕ) :
    (openedAccount rt program wallet mint mintData lamports).owner = program := by
  simp only [openedAccount]
  split
  · split <;> rfl
  · rfl

/-- The length of a new account does not depend on its lamports. -/
theorem length_openedAccount (program wallet mint : Pubkey) (mintData : Bytes)
    (lamports lamports' : ℕ) :
    (openedAccount rt program wallet mint mintData lamports).data.length =
      (openedAccount rt program wallet mint mintData lamports').data.length := by
  simp only [openedAccount]
  split
  · split <;> simp only [length_newTokenData]
  · rfl

theorem checkMint_ok {program mint : Pubkey} {bank : Bank} {u : Unit}
    (h : checkMint program mint bank = .ok u)
    (hprogram : program = splTokenId ∨ program = token2022Id) :
    (bank mint).owner = program ∧
      ∃ decimals, unpackMintDecimals (bank mint).data = .ok decimals := by
  rw [checkMint, if_pos hprogram] at h
  simp only [bind_eq_ok, check_eq_ok] at h
  obtain ⟨_, howner, decimals, hdecimals, _⟩ := h
  exact ⟨howner, decimals, hdecimals⟩

theorem openAccount_spec {payer wallet mint account program : Pubkey} {bank bank' : Bank}
    (h : openAccount rt payer wallet mint account program bank = .ok bank') :
    OpenSpec rt payer wallet mint account program bank bank' := by
  simp only [openAccount, bind_eq_ok, check_eq_ok, pure_eq_ok] at h
  obtain ⟨_, howner, _, hdata, _, hprogram, _, hmint, funded, hfunded, rfl⟩ := h
  have hspec := fundRent_spec hfunded
  have hopened : Function.update funded account (openedAccount rt program wallet mint
      (bank mint).data (funded account).lamports) account =
      openedAccount rt program wallet mint (bank mint).data (funded account).lamports :=
    Function.update_self ..
  have hlength := @length_openedAccount rt program wallet mint (bank mint).data
    (funded account).lamports (bank account).lamports
  refine ⟨howner, hdata, hprogram, checkMint_ok hmint, ?_, fun key hkey => ?_,
    fun key hkey hpayer => ?_, fun key hkey => ?_, ?_, fun hpayer => ?_⟩
  · rw [hopened, openedAccount_lamports]
  · rw [Function.update_of_ne hkey]
    exact hspec.contents key
  · rw [Function.update_of_ne hkey]
    exact hspec.frame key hpayer hkey
  · rw [Function.update_of_ne hkey]
    exact hspec.lamports_le key hkey
  · rw [hopened, hlength]
    exact hspec.paid
  · rw [hopened, openedAccount_lamports, hlength]
    exact hspec.received hpayer

theorem createIdempotent_spec {payer wallet mint account program : Pubkey}
    {bank bank' : Bank}
    (h : createIdempotent rt payer wallet mint account program bank = .ok bank') :
    CreateSpec rt payer wallet mint account program bank bank' := by
  simp only [createIdempotent, bind_eq_ok, check_eq_ok] at h
  obtain ⟨_, _, h⟩ := h
  split at h
  · rename_i token htoken
    simp only [bind_eq_ok, check_eq_ok, pure_eq_ok] at h
    obtain ⟨_, howner, _, hmint, rfl⟩ := h
    exact .existing token (unpackTokenAccount_eq_ok.mp htoken) howner hmint rfl
  · exact .fresh (openAccount_spec h)

end QuayTitan
