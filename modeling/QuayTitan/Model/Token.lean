import QuayTitan.Model.Account

/-! # System, token and associated-token programs

The programs the route program calls, by their documented behaviour. SPL Token and
Token-2022 share one account layout; what the Token-2022 extensions add to it is a field
of `Runtime`. -/

namespace QuayTitan

open ByteFields

inductive ProgramError
  | missingAccount
  | incorrectProgramId
  | invalidAccountData
  | accountFrozen
  | insufficientFunds
  | mintMismatch
  | mintDecimalsMismatch
  | ownerMismatch
  | overflow
  | nonNativeHasBalance
  | nonNativeNotSupported
  | illegalOwner
  | accountAlreadyInUse
  | extensionRejected
  | custom (code : ℕ)
deriving DecidableEq

/-- The parts of the runtime that are not fixed by an account layout. -/
structure Runtime where
  /-- The program-derived address of a wallet's token account. -/
  ataAddress : (wallet mint tokenProgram : Pubkey) → Pubkey
  /-- `Rent::minimum_balance` of a data length. -/
  minimumBalance : ℕ → ℕ
  minimumBalance_pos : ∀ length, 0 < minimumBalance length
  /-- Extension bytes of a new Token-2022 account of a mint, after the account type. -/
  accountTail : (mintData : Bytes) → Bytes
  /-- Fee withheld from a checked transfer; a mint's schedule is fixed for an epoch. -/
  transferFee : (mint : Pubkey) → (amount : ℕ) → ℕ
  /-- Extension bytes of the destination after a fee was withheld in it. -/
  withholdFee : (tail : Bytes) → (fee : ℕ) → Bytes
  permitsTransfer : (mintData sourceData destinationData : Bytes) → Bool
  permitsClose : (data : Bytes) → Bool
  /-- What a program that is not a token program writes into an account the
  associated-token program opened for it. -/
  foreignAccount : (program wallet mint : Pubkey) → Bytes

variable (rt : Runtime)

/-- Continue only when a check passes. -/
def check {ε : Type*} (condition : Prop) [Decidable condition] (error : ε) : Except ε Unit :=
  if condition then .ok () else .error error

/-! ## Token account layout -/

def accountLen : ℕ := 165
def multisigLen : ℕ := 355
def mintLen : ℕ := 82

structure TokenAccount where
  mint : Pubkey
  owner : Pubkey
  amount : ℕ
  delegate : Option Pubkey
  frozen : Bool
  /-- For a wrapped-SOL account, the lamports kept back as rent. -/
  isNative : Option ℕ
  delegatedAmount : ℕ
  closeAuthority : Option Pubkey
deriving DecidableEq

/-- A `COption`: a four-byte tag before the value. -/
def unpackCOption {α : Type*} (data : Bytes) (offset : ℕ) (value : Option α) :
    Option (Option α) :=
  match getLE data offset 4 with
  | some 0 => some none
  | some 1 => value.map some
  | _ => none

/-- Whether the length and the account type mark the data as those of an account. -/
def hasAccountShape (data : Bytes) : Bool :=
  data.length = accountLen ||
    (accountLen < data.length && data.length ≠ multisigLen && data[accountLen]? = some 2)

/-- The fields of an initialized token account. -/
def readTokenAccount (data : Bytes) : Option TokenAccount := do
  let mint ← getKey data 0
  let owner ← getKey data 32
  let amount ← getLE data 64 8
  let delegate ← unpackCOption data 72 (getKey data 76)
  let state : UInt8 ← data[108]?
  let isNative ← unpackCOption data 109 (getLE data 113 8)
  let delegatedAmount ← getLE data 121 8
  let closeAuthority ← unpackCOption data 129 (getKey data 133)
  if state = 1 ∨ state = 2 then
    some { mint, owner, amount, delegate, frozen := state = 2, isNative,
           delegatedAmount, closeAuthority }
  else none

/-- `Account::unpack` for an account held by `program`; only Token-2022 accounts are
longer than the base layout. -/
def unpackTokenAccount (program : Pubkey) (account : Account) :
    Except ProgramError TokenAccount := do
  check (account.owner = program) .incorrectProgramId
  check (hasAccountShape account.data ∧
    (program = token2022Id ∨ account.data.length = accountLen)) .invalidAccountData
  match readTokenAccount account.data with
  | some token => .ok token
  | none => .error .invalidAccountData

/-- `Mint::unpack`, down to the decimals. -/
def unpackMintDecimals (data : Bytes) : Except ProgramError UInt8 :=
  if (data.length = mintLen ∨ (accountLen < data.length ∧ data.length ≠ multisigLen ∧
      data[accountLen]? = some 1)) ∧ data[45]? = some 1 then
    match data[44]? with
    | some decimals => .ok decimals
    | none => .error .invalidAccountData
  else .error .invalidAccountData

/-- The wrapped-SOL mint of a token program. -/
def nativeMintOf (program : Pubkey) : Pubkey :=
  if program = token2022Id then nativeMint2022Id else nativeMintId

/-- The `COption` of the rent kept back in a wrapped-SOL account. -/
def packNative : Option ℕ → Bytes
  | none => zeros 12
  | some reserve => leBytes 4 1 ++ leBytes 8 reserve

/-- The data `initialize_account3` writes. -/
def newTokenData (mint wallet : Pubkey) (amount : ℕ) (isNative : Option ℕ) (tail : Bytes) :
    Bytes :=
  mint.bytes ++ (wallet.bytes ++ (leBytes 8 amount ++ (zeros 36 ++ ([1] ++
    (packNative isNative ++ (zeros 44 ++ tail))))))

/-! ## System program -/

/-- Move lamports; only an account without data that the system program owns can pay. -/
def systemTransfer (source destination : Pubkey) (lamports : ℕ) (bank : Bank) :
    Except ProgramError Bank := do
  check ((bank source).owner = systemProgramId ∧ (bank source).data = []) .invalidAccountData
  check (lamports ≤ (bank source).lamports) .insufficientFunds
  let debited := Function.update bank source
    { bank source with lamports := (bank source).lamports - lamports }
  pure <| Function.update debited destination
    { debited destination with lamports := (debited destination).lamports + lamports }

/-- Give an unused address `space` zero bytes of data. -/
def systemAllocate (account : Pubkey) (space : ℕ) (bank : Bank) : Except ProgramError Bank := do
  check ((bank account).data = [] ∧ (bank account).owner = systemProgramId) .accountAlreadyInUse
  pure (Function.update bank account { bank account with data := zeros space })

/-- Hand an account over to another program; only its owner can. -/
def systemAssign (account owner : Pubkey) (bank : Bank) : Except ProgramError Bank :=
  if (bank account).owner = owner then pure bank
  else do
    check ((bank account).owner = systemProgramId) .illegalOwner
    pure (Function.update bank account { bank account with owner })

/-- `CreateAccount`: fund, allocate and assign an address that holds no lamports. -/
def systemCreateAccount (source account : Pubkey) (lamports space : ℕ) (owner : Pubkey)
    (bank : Bank) : Except ProgramError Bank := do
  check ((bank account).lamports = 0) .accountAlreadyInUse
  let allocated ← systemAllocate account space bank
  let assigned ← systemAssign account owner allocated
  systemTransfer source account lamports assigned

/-! ## Token programs -/

/-- `validate_owner`: the authority has signed, and a multisig cannot, as no signer
accounts are passed. -/
def validateOwner (program expected authority : Pubkey) (bank : Bank) :
    Except ProgramError Unit :=
  check (expected = authority ∧
    ¬((bank authority).owner = program ∧ (bank authority).data.length = multisigLen))
    .ownerMismatch

/-- The owner may spend, and a delegate within its allowance. -/
def authorizeTransfer (program : Pubkey) (source : TokenAccount) (authority : Pubkey)
    (amount : ℕ) (bank : Bank) : Except ProgramError Unit :=
  if source.delegate = some authority then do
    validateOwner program authority authority bank
    check (amount ≤ source.delegatedAmount) .insufficientFunds
  else validateOwner program source.owner authority bank

/-- A delegate's transfer uses up its allowance and ends the delegation with it. -/
def spendAllowance (source : TokenAccount) (authority : Pubkey) (amount : ℕ)
    (data : Bytes) : Bytes :=
  if source.delegate = some authority then
    let left := source.delegatedAmount - amount
    let spent := putLE data 121 8 left
    if left = 0 then putLE spent 72 4 0 else spent
  else data

/-- The fee a transfer withholds: none for `Transfer`; `TransferChecked` also checks the
mint and lets the extensions refuse. -/
def withheldFee (checked : Option (Pubkey × UInt8)) (source : TokenAccount)
    (sourceData destinationData : Bytes) (amount : ℕ) (bank : Bank) :
    Except ProgramError ℕ :=
  match checked with
  | none => pure 0
  | some (mint, decimals) => do
      check (mint = source.mint) .mintMismatch
      let mintDecimals ← unpackMintDecimals (bank mint).data
      check (mintDecimals = decimals) .mintDecimalsMismatch
      check (rt.permitsTransfer (bank mint).data sourceData destinationData)
        .extensionRejected
      pure (rt.transferFee mint amount)

/-- Lamports move along with the balance of a wrapped-SOL account. -/
def nativeLamports (token : TokenAccount) (amount : ℕ) : ℕ :=
  if token.isNative.isSome then amount else 0

def debitedAccount (account : Account) (token : TokenAccount) (authority : Pubkey)
    (amount : ℕ) : Account where
  data := putLE (spendAllowance token authority amount account.data) 64 8
    (token.amount - amount)
  lamports := account.lamports - nativeLamports token amount
  owner := account.owner

/-- The destination after receiving `amount`; a fee is withheld in its extensions. -/
def creditedAccount (account : Account) (token : TokenAccount) (lamports amount fee : ℕ) :
    Account where
  data :=
    let paid := putLE account.data 64 8 (token.amount + (amount - fee))
    if fee = 0 then paid
    else paid.take accountLen ++ rt.withholdFee (paid.drop accountLen) fee
  lamports := account.lamports + lamports
  owner := account.owner

/-- `Transfer` (`checked = none`) and `TransferChecked` of a token program. -/
def tokenTransfer (program : Pubkey) (checked : Option (Pubkey × UInt8))
    (source destination authority : Pubkey) (amount : ℕ) (bank : Bank) :
    Except ProgramError Bank := do
  let src ← unpackTokenAccount program (bank source)
  let dst ← unpackTokenAccount program (bank destination)
  check (src.frozen = false ∧ dst.frozen = false) .accountFrozen
  check (amount ≤ src.amount) .insufficientFunds
  check (src.mint = dst.mint) .mintMismatch
  let fee ← withheldFee rt checked src (bank source).data (bank destination).data amount bank
  authorizeTransfer program src authority amount bank
  if source = destination then pure bank
  else do
    check (dst.amount + (amount - fee) ≤ u64Max) .overflow
    check (nativeLamports src amount ≤ (bank source).lamports) .overflow
    let debited := Function.update bank source
      (debitedAccount (bank source) src authority amount)
    pure <| Function.update debited destination
      (creditedAccount rt (bank destination) dst (nativeLamports src amount) amount fee)

/-- `CloseAccount`: the lamports go to the destination and the address is freed. -/
def tokenClose (program account destination authority : Pubkey) (bank : Bank) :
    Except ProgramError Bank := do
  check (program = splTokenId ∨ program = token2022Id) .incorrectProgramId
  check (account ≠ destination) .invalidAccountData
  let token ← unpackTokenAccount program (bank account)
  check (token.isNative.isSome ∨ token.amount = 0) .nonNativeHasBalance
  validateOwner program (token.closeAuthority.getD token.owner) authority bank
  check (program = token2022Id → rt.permitsClose (bank account).data) .extensionRejected
  let refunded := Function.update bank destination
    { bank destination with
      lamports := (bank destination).lamports + (bank account).lamports }
  pure (Function.update refunded account .absent)

/-- `SyncNative`: a wrapped-SOL balance catches up with the account's lamports. -/
def syncNative (program account : Pubkey) (bank : Bank) : Except ProgramError Bank := do
  check (program = splTokenId) .incorrectProgramId
  let token ← unpackTokenAccount program (bank account)
  match token.isNative with
  | none => .error .nonNativeNotSupported
  | some reserve => do
      check (reserve ≤ (bank account).lamports) .overflow
      check (token.amount ≤ (bank account).lamports - reserve) .invalidAccountData
      pure <| Function.update bank account
        { bank account with
          data := putLE (bank account).data 64 8 ((bank account).lamports - reserve) }

/-! ## Associated-token program -/

/-- Lamports the payer adds so that a new account of this length is rent-exempt. -/
def rentShortfall (length lamports : ℕ) : ℕ := max (rt.minimumBalance length) 1 - lamports

/-- The account the associated-token program leaves at a fresh address that holds
`lamports` after funding. -/
def openedAccount (program wallet mint : Pubkey) (mintData : Bytes) (lamports : ℕ) : Account :=
  if program = splTokenId ∨ program = token2022Id then
    let tail := if program = token2022Id then 2 :: rt.accountTail mintData else []
    let reserve := rt.minimumBalance (accountLen + tail.length)
    if mint = nativeMintOf program then
      ⟨lamports, newTokenData mint wallet (lamports - reserve) (some reserve) tail, program⟩
    else ⟨lamports, newTokenData mint wallet 0 none tail, program⟩
  else ⟨lamports, rt.foreignAccount program wallet mint, program⟩

/-- A token program opens an account only for a mint it holds. -/
def checkMint (program mint : Pubkey) (bank : Bank) : Except ProgramError Unit :=
  if program = splTokenId ∨ program = token2022Id then do
    check ((bank mint).owner = program) .incorrectProgramId
    let _ ← unpackMintDecimals (bank mint).data
    pure ()
  else pure ()

def fundRent (payer account : Pubkey) (shortfall : ℕ) (bank : Bank) :
    Except ProgramError Bank :=
  if 0 < shortfall then systemTransfer payer account shortfall bank else pure bank

/-- Open a token account at an address that holds no data. The system program knows no
token instruction. -/
def openAccount (payer wallet mint account program : Pubkey) (bank : Bank) :
    Except ProgramError Bank := do
  check ((bank account).owner = systemProgramId) .illegalOwner
  check ((bank account).data = []) .accountAlreadyInUse
  check (program ≠ systemProgramId) .incorrectProgramId
  checkMint program mint bank
  let opened := openedAccount rt program wallet mint (bank mint).data
  let length := (opened (bank account).lamports).data.length
  let funded ← fundRent payer account (rentShortfall rt length (bank account).lamports) bank
  pure (Function.update funded account (opened (funded account).lamports))

/-- `CreateIdempotent`. The derived address is found among the accounts of the call only
as the token account itself: no wallet, mint or program lives at such an address. -/
def createIdempotent (payer wallet mint account program : Pubkey) (bank : Bank) :
    Except ProgramError Bank := do
  check (rt.ataAddress wallet mint program = account) .missingAccount
  match unpackTokenAccount program (bank account) with
  | .ok token => do
      check (token.owner = wallet) .ownerMismatch
      check (token.mint = mint) .mintMismatch
      pure bank
  | .error _ => openAccount rt payer wallet mint account program bank

end QuayTitan
