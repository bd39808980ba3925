import QuayTitan.Verification.Token

/-! # Calls the token programs accept

What the token, associated-token and system programs ask of a call, and what the accounts
hold after it. -/

namespace QuayTitan

open ByteFields Fallible

variable {rt : Runtime}

/-! ## Writing a field -/

/-- The fields of a token account, one by one. -/
structure Reads (data : Bytes) (token : TokenAccount) : Prop where
  mint : getKey data 0 = some token.mint
  owner : getKey data 32 = some token.owner
  amount : getLE data 64 8 = some token.amount
  delegate : unpackCOption data 72 (getKey data 76) = some token.delegate
  state : data[108]? = some (if token.frozen then 2 else 1)
  isNative : unpackCOption data 109 (getLE data 113 8) = some token.isNative
  delegatedAmount : getLE data 121 8 = some token.delegatedAmount
  closeAuthority : unpackCOption data 129 (getKey data 133) = some token.closeAuthority

theorem readTokenAccount_eq_some {data : Bytes} {token : TokenAccount} :
    readTokenAccount data = some token ↔ Reads data token := by
  simp only [readTokenAccount, Option.bind_eq_bind, Option.bind_eq_some_iff]
  constructor
  · rintro ⟨mint, hmint, owner, howner, amount, hamount, delegate, hdelegate, state, hstate,
      isNative, hnative, delegated, hdelegated, closeAuthority, hclose, h⟩
    split at h
    · rename_i hinitialized
      obtain rfl := Option.some.inj h
      refine ⟨hmint, howner, hamount, hdelegate, ?_, hnative, hdelegated, hclose⟩
      rcases hinitialized with rfl | rfl <;> exact hstate
    · cases h
  · intro h
    refine ⟨_, h.mint, _, h.owner, _, h.amount, _, h.delegate, _, h.state, _, h.isNative, _,
      h.delegatedAmount, _, h.closeAuthority, ?_⟩
    cases token with
    | mk mint owner amount delegate frozen isNative delegatedAmount closeAuthority =>
        cases frozen <;> simp

theorem unpackCOption_putLE {α : Type*} {data : Bytes} {written width offset value : ℕ}
    {field field' : Option α} (hfit : written + width ≤ data.length)
    (hapart : offset + 4 ≤ written ∨ written + width ≤ offset) (hfield : field' = field) :
    unpackCOption (putLE data written width value) offset field' =
      unpackCOption data offset field := by
  rw [unpackCOption, unpackCOption, getLE_putLE_of_disjoint _ hfit (by omega), hfield]

theorem getElem?_putLE {data : Bytes} {written width index value : ℕ}
    (hfit : written + width ≤ data.length) (hapart : index < written ∨ written + width ≤ index) :
    (putLE data written width value)[index]? = data[index]? := by
  rw [putLE, getElem?_putField (by simp; omega), if_neg (by simp; omega)]

section Writes

variable {data : Bytes} {token : TokenAccount} (h : Reads data token)
  (hlen : accountLen ≤ data.length)

include h hlen

/-- A new balance is read back, and every other field as before. -/
theorem Reads.putAmount {amount : ℕ} (hamount : amount ≤ u64Max) :
    Reads (putLE data 64 8 amount) { token with amount } := by
  have hfit : 165 ≤ data.length := hlen
  have hkey {offset : ℕ} (hoffset : offset + 32 ≤ 64 ∨ 72 ≤ offset) :
      getKey (putLE data 64 8 amount) offset = getKey data offset :=
    getKey_putLE_of_disjoint _ (by omega) (by omega)
  have hnumber {offset width : ℕ} (hoffset : 72 ≤ offset) :
      getLE (putLE data 64 8 amount) offset width = getLE data offset width :=
    getLE_putLE_of_disjoint _ (by omega) (by omega)
  refine ⟨?_, ?_, ?_, ?_, ?_, ?_, ?_, ?_⟩
  · rw [hkey (by omega), h.mint]
  · rw [hkey (by omega), h.owner]
  · exact getLE_putLE_same (by omega) (by simp only [u64Max] at hamount; omega)
  · rw [unpackCOption_putLE (by omega) (by omega) (hkey (by omega)), h.delegate]
  · rw [getElem?_putLE (by omega) (by omega), h.state]
  · rw [unpackCOption_putLE (by omega) (by omega) (hnumber (by omega)), h.isNative]
  · rw [hnumber (by omega), h.delegatedAmount]
  · rw [unpackCOption_putLE (by omega) (by omega) (hkey (by omega)), h.closeAuthority]

/-- So is a new allowance. -/
theorem Reads.putAllowance {allowance : ℕ} (hallowance : allowance ≤ u64Max) :
    Reads (putLE data 121 8 allowance) { token with delegatedAmount := allowance } := by
  have hfit : 165 ≤ data.length := hlen
  have hkey {offset : ℕ} (hoffset : offset + 32 ≤ 121 ∨ 129 ≤ offset) :
      getKey (putLE data 121 8 allowance) offset = getKey data offset :=
    getKey_putLE_of_disjoint _ (by omega) (by omega)
  have hnumber {offset width : ℕ} (hoffset : offset + width ≤ 121) :
      getLE (putLE data 121 8 allowance) offset width = getLE data offset width :=
    getLE_putLE_of_disjoint _ (by omega) (by omega)
  refine ⟨?_, ?_, ?_, ?_, ?_, ?_, ?_, ?_⟩
  · rw [hkey (by omega), h.mint]
  · rw [hkey (by omega), h.owner]
  · rw [hnumber (by omega), h.amount]
  · rw [unpackCOption_putLE (by omega) (by omega) (hkey (by omega)), h.delegate]
  · rw [getElem?_putLE (by omega) (by omega), h.state]
  · rw [unpackCOption_putLE (by omega) (by omega) (hnumber (by omega)), h.isNative]
  · exact getLE_putLE_same (by omega) (by simp only [u64Max] at hallowance; omega)
  · rw [unpackCOption_putLE (by omega) (by omega) (hkey (by omega)), h.closeAuthority]

/-- Clearing the tag of the delegate ends the delegation. -/
theorem Reads.clearDelegate : Reads (putLE data 72 4 0) { token with delegate := none } := by
  have hfit : 165 ≤ data.length := hlen
  have hkey {offset : ℕ} (hoffset : offset + 32 ≤ 72 ∨ 76 ≤ offset) :
      getKey (putLE data 72 4 0) offset = getKey data offset :=
    getKey_putLE_of_disjoint _ (by omega) (by omega)
  have hnumber {offset width : ℕ} (hoffset : offset + width ≤ 72 ∨ 76 ≤ offset) :
      getLE (putLE data 72 4 0) offset width = getLE data offset width :=
    getLE_putLE_of_disjoint _ (by omega) (by omega)
  have htag : getLE (putLE data 72 4 0) 72 4 = some 0 := getLE_putLE_same (by omega) (by omega)
  refine ⟨?_, ?_, ?_, ?_, ?_, ?_, ?_, ?_⟩
  · rw [hkey (by omega), h.mint]
  · rw [hkey (by omega), h.owner]
  · rw [hnumber (by omega), h.amount]
  · simp only [unpackCOption, htag]
  · rw [getElem?_putLE (by omega) (by omega), h.state]
  · rw [unpackCOption_putLE (by omega) (by omega) (hnumber (by omega)), h.isNative]
  · rw [hnumber (by omega), h.delegatedAmount]
  · rw [unpackCOption_putLE (by omega) (by omega) (hkey (by omega)), h.closeAuthority]

end Writes

/-- What follows the fields of a token account: its type and its extensions. -/
def extensions (data : Bytes) : Bytes := data.drop accountLen

section Shape

variable {data : Bytes} {offset width value : ℕ} (hfit : offset + width ≤ accountLen)
  (hlen : accountLen ≤ data.length)

include hfit hlen

theorem hasAccountShape_putLE :
    hasAccountShape (putLE data offset width value) = hasAccountShape data := by
  rw [hasAccountShape, hasAccountShape, getElem?_putLE (by omega) (by omega),
    length_putLE _ (by omega)]

theorem extensions_putLE : extensions (putLE data offset width value) = extensions data := by
  refine List.ext_getElem? fun i => ?_
  rw [extensions, extensions, List.getElem?_drop, List.getElem?_drop,
    getElem?_putLE (by omega) (by omega)]

end Shape

theorem Unpacks.data_ne_nil {program : Pubkey} {account : Account} {token : TokenAccount}
    (h : Unpacks program account token) : account.data ≠ [] := by
  intro hdata
  have hlen := h.accountLen_le
  rw [hdata] at hlen
  exact absurd hlen (by decide)

theorem Unpacks.reads {program : Pubkey} {account : Account} {token : TokenAccount}
    (h : Unpacks program account token) : Reads account.data token :=
  readTokenAccount_eq_some.mp h.read

/-- An account one of whose fields was written. -/
theorem Unpacks.written {program : Pubkey} {account account' : Account}
    {token token' : TokenAccount} {offset width value : ℕ} (h : Unpacks program account token)
    (howner : account'.owner = account.owner)
    (hdata : account'.data = putLE account.data offset width value)
    (hfit : offset + width ≤ accountLen) (hreads : Reads account'.data token') :
    Unpacks program account' token' := by
  have hlen := h.accountLen_le
  refine ⟨howner.trans h.owner_eq, ?_, ?_, readTokenAccount_eq_some.mpr hreads⟩
  · rw [hdata, hasAccountShape_putLE hfit hlen]
    exact h.shape
  · rw [hdata, length_putLE _ (by omega)]
    exact h.length_eq

theorem Unpacks.putAmount {program : Pubkey} {account account' : Account}
    {token : TokenAccount} {amount : ℕ} (h : Unpacks program account token)
    (howner : account'.owner = account.owner)
    (hdata : account'.data = putLE account.data 64 8 amount) (hamount : amount ≤ u64Max) :
    Unpacks program account' { token with amount } := by
  refine h.written howner hdata (by decide) ?_
  rw [hdata]
  exact h.reads.putAmount h.accountLen_le hamount

/-! ## Holdings -/

/-- A token account of a program: wrapped SOL, and only that, is backed by lamports. -/
structure Holds (program : Pubkey) (account : Account) (token : TokenAccount) : Prop where
  unpacks : Unpacks program account token
  native_iff : token.isNative.isSome = true ↔ token.mint = nativeMintOf program
  backed : token.isNative.isSome = true → token.amount ≤ account.lamports

/-- A token account its wallet can spend `limit` from: where it is delegated to the wallet
itself, the token program counts what the wallet spends against the allowance. -/
structure Spendable (token : TokenAccount) (wallet : Pubkey) (limit : ℕ) : Prop where
  owner_eq : token.owner = wallet
  not_frozen : token.frozen = false
  allowance : token.delegate = some wallet → limit ≤ token.delegatedAmount

theorem Spendable.withAmount {token : TokenAccount} {wallet : Pubkey} {limit : ℕ}
    (h : Spendable token wallet limit) (amount : ℕ) :
    Spendable { token with amount } wallet limit :=
  ⟨h.owner_eq, h.not_frozen, h.allowance⟩

theorem Spendable.mono {token : TokenAccount} {wallet : Pubkey} {limit limit' : ℕ}
    (h : Spendable token wallet limit) (hle : limit' ≤ limit) : Spendable token wallet limit' :=
  ⟨h.owner_eq, h.not_frozen, fun hdelegate => hle.trans (h.allowance hdelegate)⟩

/-- A token account of a wallet after `amount` was taken from it; a delegation to the wallet has
at most that much less of its allowance. -/
structure Debited (wallet : Pubkey) (amount : ℕ) (token token' : TokenAccount) : Prop where
  amount_eq : token'.amount = token.amount - amount
  mint_eq : token'.mint = token.mint
  owner_eq : token'.owner = token.owner
  frozen_eq : token'.frozen = token.frozen
  isNative_eq : token'.isNative = token.isNative
  closeAuthority_eq : token'.closeAuthority = token.closeAuthority
  allowance : token'.delegate = some wallet → token.delegate = some wallet ∧
    token.delegatedAmount ≤ token'.delegatedAmount + amount

theorem debited_withAmount (wallet : Pubkey) (amount : ℕ) (token : TokenAccount) :
    Debited wallet amount token { token with amount := token.amount - amount } :=
  ⟨rfl, rfl, rfl, rfl, rfl, rfl, fun hdelegate => ⟨hdelegate, Nat.le_add_right _ _⟩⟩

theorem Spendable.debited {token token' : TokenAccount} {wallet : Pubkey} {amount limit : ℕ}
    (h : Spendable token wallet (amount + limit)) (hdebited : Debited wallet amount token token') :
    Spendable token' wallet limit := by
  refine ⟨hdebited.owner_eq.trans h.owner_eq, hdebited.frozen_eq.trans h.not_frozen,
    fun hdelegate => ?_⟩
  obtain ⟨hbefore, hleft⟩ := hdebited.allowance hdelegate
  have hallowed := h.allowance hbefore
  omega

/-- An address whose one signature counts, as that of any account but a multisig. -/
def SignsAlone (program authority : Pubkey) (bank : Bank) : Prop :=
  ¬((bank authority).owner = program ∧ (bank authority).data.length = multisigLen)

theorem SignsAlone.of_sameContents {program authority : Pubkey} {bank bank' : Bank}
    (h : SignsAlone program authority bank)
    (hsame : SameContents (bank authority) (bank' authority)) :
    SignsAlone program authority bank' := by
  rw [SignsAlone, hsame.owner_eq, hsame.data_eq]
  exact h

/-! ## Transfers -/

theorem validateOwner_ok {program authority : Pubkey} {bank : Bank}
    (h : SignsAlone program authority bank) :
    validateOwner program authority authority bank = .ok () :=
  check_eq_ok.mpr ⟨rfl, h⟩

theorem authorizeTransfer_wallet {program authority : Pubkey} {token : TokenAccount}
    {amount : ℕ} {bank : Bank} (hspend : Spendable token authority amount)
    (hsigns : SignsAlone program authority bank) :
    authorizeTransfer program token authority amount bank = .ok () := by
  unfold authorizeTransfer
  split
  · rename_i hdelegate
    rw [validateOwner_ok hsigns, ok_bind]
    exact check_eq_ok.mpr (hspend.allowance hdelegate)
  · rw [hspend.owner_eq]
    exact validateOwner_ok hsigns

theorem extensions_spendAllowance {token : TokenAccount} {authority : Pubkey} {amount : ℕ}
    {data : Bytes} (hlen : accountLen ≤ data.length) :
    extensions (spendAllowance token authority amount data) = extensions data := by
  have hspent : accountLen ≤ (putLE data 121 8 (token.delegatedAmount - amount)).length := by
    rw [length_putLE _ (by simp only [accountLen] at hlen; omega)]
    exact hlen
  unfold spendAllowance
  split
  · simp only
    split
    · rw [extensions_putLE (by decide) hspent, extensions_putLE (by decide) hlen]
    · exact extensions_putLE (by decide) hlen
  · rfl

/-- What a wallet's transfer leaves of the delegation, before the balance is written. -/
theorem Unpacks.spendAllowance {program authority : Pubkey} {account : Account}
    {token : TokenAccount} (h : Unpacks program account token) (amount : ℕ) :
    ∃ spent, Unpacks program { account with
        data := QuayTitan.spendAllowance token authority amount account.data } spent ∧
      Debited authority amount token { spent with amount := token.amount - amount } := by
  have hlen := h.accountLen_le
  have hlimit := getLE_lt h.reads.delegatedAmount
  have hleft : token.delegatedAmount - amount ≤ u64Max := by
    simp only [u64Max]
    omega
  unfold QuayTitan.spendAllowance
  split
  · rename_i hdelegate
    have hallowed : Unpacks program
        { account with data := putLE account.data 121 8 (token.delegatedAmount - amount) }
        { token with delegatedAmount := token.delegatedAmount - amount } :=
      h.written rfl rfl (by decide) (h.reads.putAllowance hlen hleft)
    simp only
    split
    · have hcleared := hallowed.reads.clearDelegate hallowed.accountLen_le
      refine ⟨_, hallowed.written rfl rfl (by decide) hcleared, rfl, rfl, rfl, rfl, rfl, rfl, ?_⟩
      exact fun hnone => (Option.some_ne_none _ hnone.symm).elim
    · refine ⟨_, hallowed, rfl, rfl, rfl, rfl, rfl, rfl, fun _ => ⟨hdelegate, ?_⟩⟩
      simp only
      omega
  · exact ⟨token, h, debited_withAmount authority amount token⟩

/-- An amount went from one account to the other, and nothing else happened. -/
structure Moves (program source destination authority : Pubkey) (src dst : TokenAccount)
    (amount : ℕ) (bank bank' : Bank) : Prop where
  source_holds : ∃ src', Debited authority amount src src' ∧ Holds program (bank' source) src'
  destination_holds : Holds program (bank' destination) { dst with amount := dst.amount + amount }
  extensions_eq : ∀ key, extensions (bank' key).data = extensions (bank key).data
  frame : ∀ key, key ≠ source → key ≠ destination → bank' key = bank key

section Transfer

variable {program source destination authority : Pubkey} {src dst : TokenAccount} {amount : ℕ}
  {bank : Bank}

/-- The accounts of a transfer the token program has no reason to refuse. -/
structure Movable (program source destination authority : Pubkey) (src dst : TokenAccount)
    (amount : ℕ) (bank : Bank) : Prop where
  source_holds : Holds program (bank source) src
  destination_holds : Holds program (bank destination) dst
  ne : source ≠ destination
  mint_eq : src.mint = dst.mint
  spendable : Spendable src authority amount
  signs : SignsAlone program authority bank
  not_frozen : dst.frozen = false
  funds : amount ≤ src.amount
  room : dst.amount + amount ≤ u64Max

theorem Movable.debit (h : Movable program source destination authority src dst amount bank) :
    ∃ src', Debited authority amount src src' ∧
      Holds program (debitedAccount (bank source) src authority amount) src' := by
  have hamount := h.source_holds.unpacks.amount_le
  obtain ⟨spent, hspent, hdebited⟩ := @Unpacks.spendAllowance _ authority _ _
    h.source_holds.unpacks amount
  have hpaid : Unpacks program (debitedAccount (bank source) src authority amount)
      { spent with amount := src.amount - amount } := hspent.putAmount rfl rfl (by omega)
  refine ⟨_, hdebited, hpaid, ?_, fun hnative => ?_⟩
  · rw [hdebited.isNative_eq, hdebited.mint_eq]
    exact h.source_holds.native_iff
  · rw [hdebited.isNative_eq] at hnative
    have hbacked := h.source_holds.backed hnative
    rw [debitedAccount, nativeLamports, if_pos hnative]
    exact Nat.sub_le_sub_right hbacked amount

theorem Movable.credit (h : Movable program source destination authority src dst amount bank) :
    Holds program
      (creditedAccount rt (bank destination) dst (nativeLamports src amount) amount 0)
      { dst with amount := dst.amount + amount } := by
  refine ⟨?_, h.destination_holds.native_iff, fun hnative => ?_⟩
  · refine h.destination_holds.unpacks.putAmount rfl ?_ h.room
    simp only [creditedAccount, if_true, Nat.sub_zero]
  · have hsource : src.isNative.isSome = true := by
      rw [h.source_holds.native_iff, h.mint_eq, ← h.destination_holds.native_iff]
      exact hnative
    rw [creditedAccount, nativeLamports, if_pos hsource]
    exact Nat.add_le_add_right (h.destination_holds.backed hnative) amount

/-- The token program moves what it has no reason to refuse, when no fee is withheld. -/
theorem Movable.tokenTransfer_ok
    (h : Movable program source destination authority src dst amount bank)
    {checked : Option (Pubkey × UInt8)}
    (hfee : withheldFee rt checked src (bank source).data (bank destination).data amount bank =
      .ok 0) :
    ∃ bank', tokenTransfer rt program checked source destination authority amount bank =
      .ok bank' ∧ Moves program source destination authority src dst amount bank bank' := by
  have hlamports : nativeLamports src amount ≤ (bank source).lamports := by
    unfold nativeLamports
    split
    · rename_i hnative
      exact h.funds.trans (h.source_holds.backed hnative)
    · exact Nat.zero_le _
  refine ⟨Function.update (Function.update bank source
    (debitedAccount (bank source) src authority amount)) destination
    (creditedAccount rt (bank destination) dst (nativeLamports src amount) amount 0), ?_, ?_, ?_,
    ?_, ?_⟩
  · simp only [tokenTransfer, unpackTokenAccount_eq_ok.mpr h.source_holds.unpacks,
      unpackTokenAccount_eq_ok.mpr h.destination_holds.unpacks, ok_bind, check,
      h.spendable.not_frozen, h.not_frozen, and_self, if_true, h.funds, h.mint_eq, hfee,
      authorizeTransfer_wallet h.spendable h.signs, h.ne, if_false, Nat.sub_zero, h.room, hlamports]
    rfl
  · rw [Function.update_of_ne h.ne, Function.update_self]
    exact h.debit
  · rw [Function.update_self]
    exact h.credit
  · intro key
    by_cases hdestination : key = destination
    · rw [hdestination, Function.update_self]
      simp only [creditedAccount, if_true]
      exact extensions_putLE (by decide) h.destination_holds.unpacks.accountLen_le
    · rw [Function.update_of_ne hdestination]
      by_cases hsource : key = source
      · have hlen := h.source_holds.unpacks.accountLen_le
        rw [hsource, Function.update_self, debitedAccount,
          extensions_putLE (by decide) (by rw [length_spendAllowance _ _ _ hlen]; exact hlen)]
        exact extensions_spendAllowance hlen
      · rw [Function.update_of_ne hsource]
  · intro key hsource hdestination
    rw [Function.update_of_ne hdestination, Function.update_of_ne hsource]

end Transfer

/-! ## Mints -/

/-- A mint of a token program. -/
structure IsMint (program : Pubkey) (account : Account) (decimals : UInt8) : Prop where
  known : program = splTokenId ∨ program = token2022Id
  owner_eq : account.owner = program
  decimals_eq : unpackMintDecimals account.data = .ok decimals

theorem IsMint.of_sameContents {program : Pubkey} {account account' : Account}
    {decimals : UInt8} (h : IsMint program account decimals)
    (hsame : SameContents account account') : IsMint program account' decimals :=
  ⟨h.known, by rw [hsame.owner_eq]; exact h.owner_eq, by rw [hsame.data_eq]; exact h.decimals_eq⟩

/-- The extensions a token program opens an account of a mint with. -/
def newExtensions (rt : Runtime) (program : Pubkey) (mintData : Bytes) : Bytes :=
  if program = token2022Id then 2 :: rt.accountTail mintData else []

/-- A mint without a transfer fee, whose new accounts can be closed again and are never as
long as a multisig. -/
structure PlainMint (rt : Runtime) (program mint : Pubkey) (mintData : Bytes) : Prop where
  no_fee : ∀ amount, rt.transferFee mint amount = 0
  account_length : accountLen + (rt.accountTail mintData).length + 1 ≠ multisigLen
  permits_close : ∀ data, extensions data = newExtensions rt program mintData →
    rt.permitsClose data = true

theorem PlainMint.withheldFee_eq {program mint : Pubkey} {bank : Bank} {decimals : UInt8}
    {source : TokenAccount} {sourceData destinationData : Bytes} {amount : ℕ}
    (h : PlainMint rt program mint (bank mint).data) (hmint : IsMint program (bank mint) decimals)
    (hsource : source.mint = mint)
    (hpermits : rt.permitsTransfer (bank mint).data sourceData destinationData = true) :
    withheldFee rt (some (mint, decimals)) source sourceData destinationData amount bank =
      .ok 0 := by
  simp only [withheldFee, check, hsource, if_true, hmint.decimals_eq, ok_bind, hpermits, h.no_fee]
  rfl

/-! ## Closing -/

/-- An empty account without a close authority is closed for its wallet. -/
theorem tokenClose_ok {program account destination authority : Pubkey} {token : TokenAccount}
    {bank : Bank} (hprogram : program = splTokenId ∨ program = token2022Id)
    (hunpacks : Unpacks program (bank account) token) (hempty : token.amount = 0)
    (hauthority : token.closeAuthority.getD token.owner = authority)
    (hsigns : SignsAlone program authority bank) (hne : account ≠ destination)
    (hpermits : rt.permitsClose (bank account).data = true) :
    ∃ bank', tokenClose rt program account destination authority bank = .ok bank' := by
  simp only [tokenClose, check, if_pos hprogram, if_pos hne, ok_bind,
    unpackTokenAccount_eq_ok.mpr hunpacks, hempty, or_true, if_true, hauthority,
    validateOwner_ok hsigns, hpermits, implies_true]
  exact ⟨_, rfl⟩

/-! ## Opening -/

/-- An address without an account. -/
structure Vacant (account : Account) : Prop where
  owner_eq : account.owner = systemProgramId
  data_eq : account.data = []

theorem Vacant.of_sameContents {account account' : Account} (h : Vacant account)
    (hsame : SameContents account account') : Vacant account' :=
  ⟨hsame.owner_eq.trans h.owner_eq, hsame.data_eq.trans h.data_eq⟩

theorem Vacant.unpackTokenAccount_error {account : Account} (h : Vacant account)
    (program : Pubkey) : ∃ error, unpackTokenAccount program account = .error error := by
  cases hunpack : unpackTokenAccount program account with
  | error error => exact ⟨error, rfl⟩
  | ok token =>
      exact absurd h.data_eq (unpackTokenAccount_eq_ok.mp hunpack).data_ne_nil

/-- The lamports a payer adds when an account is opened at an address. -/
def openingCost (rt : Runtime) (program wallet mint account : Pubkey) (bank : Bank) : ℕ :=
  rentShortfall rt
    (openedAccount rt program wallet mint (bank mint).data (bank account).lamports).data.length
    (bank account).lamports

/-- A payer the system program takes the lamports from, if there are any to pay. -/
def CanFund (payer : Account) (cost : ℕ) : Prop :=
  0 < cost → Vacant payer ∧ cost ≤ payer.lamports

theorem CanFund.mono {payer : Account} {cost total : ℕ} (h : CanFund payer total)
    (hle : cost ≤ total) : CanFund payer cost := by
  intro hpos
  obtain ⟨hpayer, hfunds⟩ := h (by omega)
  exact ⟨hpayer, by omega⟩

/-- An associated account that can be opened at the payer's cost. -/
structure Openable (rt : Runtime) (payer wallet mint account program : Pubkey)
    (decimals : UInt8) (bank : Bank) : Prop where
  vacant : Vacant (bank account)
  derived : rt.ataAddress wallet mint program = account
  mint_ok : IsMint program (bank mint) decimals
  payer_ne : payer ≠ account
  funded : CanFund (bank payer) (openingCost rt program wallet mint account bank)

theorem fundRent_ok {payer account : Pubkey} {shortfall : ℕ} {bank : Bank}
    (h : CanFund (bank payer) shortfall) :
    ∃ bank', fundRent payer account shortfall bank = .ok bank' := by
  unfold fundRent
  split
  · rename_i hpos
    obtain ⟨hpayer, hfunds⟩ := h hpos
    simp only [systemTransfer, check, hpayer.owner_eq, hpayer.data_eq, and_self, if_true, hfunds,
      ok_bind]
    exact ⟨_, rfl⟩
  · exact ⟨bank, rfl⟩

theorem fundRent_payer {payer account : Pubkey} {shortfall : ℕ} {bank bank' : Bank}
    (h : fundRent payer account shortfall bank = .ok bank') (hne : payer ≠ account) :
    (bank' payer).lamports + shortfall = (bank payer).lamports := by
  unfold fundRent at h
  split at h
  · have hspec := systemTransfer_spec h
    rw [hspec.source_lamports hne, Nat.sub_add_cancel hspec.funds]
  · rename_i hzero
    rw [pure_eq_ok] at h
    rw [h]
    omega

theorem Openable.createIdempotent_ok {payer wallet mint account program : Pubkey}
    {decimals : UInt8} {bank : Bank}
    (h : Openable rt payer wallet mint account program decimals bank) :
    ∃ bank', createIdempotent rt payer wallet mint account program bank = .ok bank' ∧
      OpenSpec rt payer wallet mint account program bank bank' ∧
      (bank' payer).lamports + openingCost rt program wallet mint account bank =
        (bank payer).lamports := by
  obtain ⟨error, herror⟩ := h.vacant.unpackTokenAccount_error program
  obtain ⟨funded, hfunded⟩ := @fundRent_ok payer account _ bank h.funded
  have hprogram : program ≠ systemProgramId := by
    rcases h.mint_ok.known with rfl | rfl
    · exact splTokenId_ne_systemProgramId
    · exact token2022Id_ne_systemProgramId
  have hmint : checkMint program mint bank = .ok () := by
    simp only [checkMint, if_pos h.mint_ok.known, check, h.mint_ok.owner_eq, if_true, ok_bind,
      h.mint_ok.decimals_eq]
    rfl
  have hopen : openAccount rt payer wallet mint account program bank =
      .ok (Function.update funded account (openedAccount rt program wallet mint (bank mint).data
        (funded account).lamports)) := by
    rw [openingCost] at hfunded
    simp only [openAccount, check, h.vacant.owner_eq, h.vacant.data_eq, if_true, if_pos hprogram,
      ok_bind, hmint, hfunded]
    rfl
  refine ⟨_, ?_, openAccount_spec hopen, ?_⟩
  · simp only [createIdempotent, check, if_pos h.derived, ok_bind, herror, hopen]
  · rw [Function.update_of_ne h.payer_ne]
    exact fundRent_payer hfunded h.payer_ne

/-- An account as the associated-token program leaves it. -/
structure Fresh (mint wallet : Pubkey) (token : TokenAccount) : Prop where
  mint_eq : token.mint = mint
  owner_eq : token.owner = wallet
  delegate_eq : token.delegate = none
  not_frozen : token.frozen = false
  closeAuthority_eq : token.closeAuthority = none

theorem Fresh.spendable {mint wallet : Pubkey} {token : TokenAccount} (limit : ℕ)
    (h : Fresh mint wallet token) : Spendable token wallet limit := by
  refine ⟨h.owner_eq, h.not_frozen, fun hdelegate => ?_⟩
  rw [h.delegate_eq] at hdelegate
  cases hdelegate

/-- The extensions of a new account: none, or an account type and what follows it. -/
inductive NewTail (program : Pubkey) : Bytes → Prop
  | none : NewTail program []
  | extended (rest : Bytes) (program_eq : program = token2022Id)
      (length_ne : accountLen + rest.length + 1 ≠ multisigLen) : NewTail program (2 :: rest)

theorem NewTail.unpacks {program mint wallet : Pubkey} {tail : Bytes}
    (h : NewTail program tail) (lamports amount : ℕ) (isNative : Option ℕ) :
    Unpacks program ⟨lamports, newTokenData mint wallet amount isNative tail, program⟩
      ⟨mint, wallet, amount % 2 ^ 64, .none, false, isNative.map (· % 2 ^ 64), 0, .none⟩ := by
  have hlength : (newTokenData mint wallet amount isNative tail).length =
      accountLen + tail.length := length_newTokenData
  refine ⟨rfl, ?_, ?_, readTokenAccount_newTokenData⟩
  · cases h with
    | none => simp [hasAccountShape, hlength]
    | extended rest program_eq length_ne =>
        have hne : accountLen + (rest.length + 1) ≠ multisigLen := by omega
        rw [hasAccountShape, hlength, getElem?_newTokenData]
        simp [hne]
  · cases h with
    | none => exact .inr hlength
    | extended rest program_eq length_ne => exact .inl program_eq

theorem extensions_newTokenData {mint wallet : Pubkey} {amount : ℕ} {isNative : Option ℕ}
    {tail : Bytes} : extensions (newTokenData mint wallet amount isNative tail) = tail := by
  simp only [extensions, newTokenData, ← List.append_assoc]
  exact List.drop_left' (by simp [accountLen])

theorem PlainMint.newTail {program mint : Pubkey} {mintData : Bytes}
    (h : PlainMint rt program mint mintData) :
    NewTail program (newExtensions rt program mintData) := by
  unfold newExtensions
  split
  · rename_i hprogram
    exact .extended _ hprogram h.account_length
  · exact .none

/-- The lamports at a new account are those that waited at its address and the payer's. -/
theorem OpenSpec.account_eq {payer wallet mint account program : Pubkey} {bank bank' : Bank}
    (h : OpenSpec rt payer wallet mint account program bank bank') (hpayer : payer ≠ account) :
    bank' account = openedAccount rt program wallet mint (bank mint).data
      ((bank account).lamports + openingCost rt program wallet mint account bank) := by
  have hlength : (bank' account).data.length = (openedAccount rt program wallet mint
      (bank mint).data (bank account).lamports).data.length := by
    rw [h.opened]
    exact length_openedAccount ..
  have hopened := h.opened
  rw [h.received hpayer, hlength] at hopened
  exact hopened

/-- A newly opened account is its wallet's. -/
theorem OpenSpec.holds {payer wallet mint account program : Pubkey} {bank bank' : Bank}
    (h : OpenSpec rt payer wallet mint account program bank bank')
    (hprogram : program = splTokenId ∨ program = token2022Id)
    (hplain : PlainMint rt program mint (bank mint).data) :
    ∃ token, Holds program (bank' account) token ∧ Fresh mint wallet token ∧
      extensions (bank' account).data = newExtensions rt program (bank mint).data := by
  have hopened := h.opened
  have htail := hplain.newTail
  rw [newExtensions] at htail ⊢
  simp only [openedAccount, if_pos hprogram] at hopened
  revert hopened htail
  generalize (if program = token2022Id then 2 :: rt.accountTail (bank mint).data else []) = tail
  intro htail hopened
  split at hopened
  · rename_i hnative
    rw [hopened]
    refine ⟨_, ⟨htail.unpacks _ _ _, ?_, fun _ => ?_⟩, ⟨rfl, rfl, rfl, rfl, rfl⟩,
      extensions_newTokenData⟩
    · simp [hnative]
    · exact (Nat.mod_le _ _).trans (Nat.sub_le _ _)
  · rename_i hnative
    rw [hopened]
    refine ⟨_, ⟨htail.unpacks _ _ _, ?_, fun _ => ?_⟩, ⟨rfl, rfl, rfl, rfl, rfl⟩,
      extensions_newTokenData⟩
    · simp [hnative]
    · exact (Nat.mod_le _ _).trans (Nat.zero_le _)

end QuayTitan
