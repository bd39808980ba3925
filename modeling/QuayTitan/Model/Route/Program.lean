import QuayTitan.Model.Route.Execute
import QuayTitan.Model.Route.Wire

/-! # The route program

Its state account, its two instructions and its entry point, with the checks the derived
account contexts make before a handler runs. -/

namespace QuayTitan.Route

open ByteFields Borsh

variable (rt : Runtime)

/-- `declare_id!`. -/
def programId : Pubkey := .ofBase58 "T1TANpTeScyeqVzzgNViGDNrkQ6qHz9KrSBS4aNXvGT"

/-! ## Errors -/

/-- The errors of the derived code. -/
inductive AnchorError
  | instructionFallbackNotFound
  | instructionDidNotDeserialize
  | constraintMut
  | constraintRentExempt
  | constraintSeeds
  | accountDiscriminatorNotFound
  | accountDiscriminatorMismatch
  | accountDidNotDeserialize
  | accountNotEnoughKeys
  | accountOwnedByWrongProgram
  | invalidProgramId
  | accountNotSigner
  | accountNotInitialized
  | tryingToInitPayerAsProgramAccount
deriving DecidableEq

/-- Why a transaction fails: a check of the derived code, a handler, a call made to create
an account, or the search for an address without a valid bump. -/
inductive InstructionError
  | anchor (error : AnchorError)
  | route (error : RouteError)
  | program (error : ProgramError)
  | panicked
deriving DecidableEq

/-! ## TitanPDA -/

structure TitanPda where
  bump : UInt8
deriving DecidableEq

namespace TitanPda

def size : ℕ := 1

/-- `b"titan_pda"`. -/
def seed : Bytes := [116, 105, 116, 97, 110, 95, 112, 100, 97]

/-- The first bytes of the hash of `account:TitanPda`. -/
def discriminator : Bytes := [251, 8, 48, 12, 67, 185, 133, 113]

def codec : Codec TitanPda :=
  Codec.u8.transport TitanPda.bump .mk (fun _ => rfl) fun _ _ => rfl

def serialize (titanPda : TitanPda) : Bytes := discriminator ++ codec.encode titanPda

def tryDeserializeUnchecked (data : Bytes) : Except AnchorError TitanPda :=
  match codec.decode (data.drop discriminator.length) with
  | some (titanPda, _) => .ok titanPda
  | none => .error .accountDidNotDeserialize

def tryDeserialize (data : Bytes) : Except AnchorError TitanPda := do
  check (discriminator.length ≤ data.length) .accountDiscriminatorNotFound
  check (data.take discriminator.length = discriminator) .accountDiscriminatorMismatch
  tryDeserializeUnchecked data

/-- The ownership checks of `Account::try_from`. -/
def checkOwner (account : Account) : Except AnchorError Unit := do
  check (¬(account.owner = systemProgramId ∧ account.lamports = 0)) .accountNotInitialized
  check (account.owner = programId) .accountOwnedByWrongProgram

def tryFrom (account : Account) : Except AnchorError TitanPda := do
  checkOwner account
  tryDeserialize account.data

def tryFromUnchecked (account : Account) : Except AnchorError TitanPda := do
  checkOwner account
  tryDeserializeUnchecked account.data

end TitanPda

/-! ## Program-derived addresses -/

/-- `Pubkey::create_program_address`: an address off the curve for these seeds, if the
seeds give one. -/
abbrev Derivation := (seeds : List Bytes) → (program : Pubkey) → Option Pubkey

variable (derive : Derivation)

/-- `Pubkey::find_program_address`: the bumps from 255 down to 1, until one gives an
address. -/
def findProgramAddress (seeds : List Bytes) (program : Pubkey) : Option (Pubkey × UInt8) :=
  (List.range 255).findSome? fun i =>
    let bump := UInt8.ofNat (255 - i)
    (derive (seeds ++ [[bump]]) program).map fun address => (address, bump)

/-! ## Reading the accounts of an instruction

Each reader takes an account off the front of those not read yet. -/

def takeAccount : List AccountInfo → Except AnchorError (AccountInfo × List AccountInfo)
  | [] => .error .accountNotEnoughKeys
  | info :: rest => .ok (info, rest)

def takeSigner (infos : List AccountInfo) :
    Except AnchorError (AccountInfo × List AccountInfo) := do
  let (info, rest) ← takeAccount infos
  check (info.isSigner = true) .accountNotSigner
  pure (info, rest)

def takeProgram (program : Pubkey) (infos : List AccountInfo) :
    Except AnchorError (List AccountInfo) := do
  let (info, rest) ← takeAccount infos
  check (info.key = program) .invalidProgramId
  pure rest

/-- An optional account; the id of the route program stands for none. -/
def takeOptional (infos : List AccountInfo) :
    Except AnchorError (Option Pubkey × List AccountInfo) := do
  let (info, rest) ← takeAccount infos
  pure (if info.key = programId then none else some info.key, rest)

/-- `SwapRouteV3::try_accounts`: the fields in order, then their constraints. -/
def SwapRouteV3.tryAccounts (infos : List AccountInfo) (bank : Bank) :
    Except AnchorError Context := do
  let (payer, infos) ← takeSigner infos
  let (user, infos) ← takeSigner infos
  let (titanPda, infos) ← takeAccount infos
  let state ← TitanPda.tryFrom (bank titanPda.key)
  let (inputTokenAccount, infos) ← takeAccount infos
  let (outputTokenAccount, infos) ← takeAccount infos
  let (tokenProgram, infos) ← takeAccount infos
  let (token2022Program, infos) ← takeAccount infos
  let infos ← takeProgram systemProgramId infos
  let (_associatedTokenProgram, infos) ← takeAccount infos
  let (tokenLedger, infos) ← takeOptional infos
  let (_reservedOptionalAccount0, infos) ← takeOptional infos
  let (_reservedOptionalAccount1, remainingAccounts) ← takeOptional infos
  check (payer.isWritable = true) .constraintMut
  check (user.isWritable = true) .constraintMut
  check (derive [TitanPda.seed, [state.bump]] programId = some titanPda.key) .constraintSeeds
  check (inputTokenAccount.isWritable = true) .constraintMut
  check (outputTokenAccount.isWritable = true) .constraintMut
  pure
    { accounts :=
        { payer := payer.key
          user := user.key
          titanPda := titanPda.key
          inputTokenAccount := inputTokenAccount.key
          outputTokenAccount := outputTokenAccount.key
          tokenProgram := tokenProgram.key
          token2022Program := token2022Program.key
          tokenLedger }
      remainingAccounts }

/-! ## `Initialize` -/

/-- Create the account of an `init` constraint. Lamports sent to the address beforehand
count towards its rent. -/
def createInitAccount (payer account : Pubkey) (space : ℕ) (bank : Bank) :
    Except InstructionError Bank :=
  if (bank account).lamports = 0 then
    (systemCreateAccount payer account (rt.minimumBalance space) space programId bank).mapError
      .program
  else do
    check (payer ≠ account) (.anchor .tryingToInitPayerAsProgramAccount)
    let funded ← (fundRent payer account (rentShortfall rt space (bank account).lamports)
      bank).mapError .program
    let allocated ← (systemAllocate account space funded).mapError .program
    (systemAssign account programId allocated).mapError .program

/-- What `Initialize::try_accounts` hands to the handler. -/
structure Initialize where
  titanPda : Pubkey
  bump : UInt8
  bank : Bank

def Initialize.tryAccounts (infos : List AccountInfo) (bank : Bank) :
    Except InstructionError Initialize := do
  let (payer, infos) ← (takeSigner infos).mapError .anchor
  let (titanPda, infos) ← (takeAccount infos).mapError .anchor
  let _ ← (takeProgram systemProgramId infos).mapError .anchor
  match findProgramAddress derive [TitanPda.seed] programId with
  | none => .error .panicked
  | some (address, bump) => do
      check (titanPda.key = address) (.anchor .constraintSeeds)
      let created ← createInitAccount rt payer.key titanPda.key
        (TitanPda.discriminator.length + TitanPda.size) bank
      let _ ← (TitanPda.tryFromUnchecked (created titanPda.key)).mapError .anchor
      check (titanPda.isWritable = true) (.anchor .constraintMut)
      check (rt.minimumBalance (created titanPda.key).data.length ≤
        (created titanPda.key).lamports) (.anchor .constraintRentExempt)
      check (payer.isWritable = true) (.anchor .constraintMut)
      pure { titanPda := titanPda.key, bump, bank := created }

/-- `Initialize::execute`, and the account written back when it returns. -/
def Initialize.execute (accounts : Initialize) : Bank :=
  let account := accounts.bank accounts.titanPda
  let serialized := TitanPda.serialize ⟨accounts.bump⟩
  Function.update accounts.bank accounts.titanPda
    { account with data := serialized ++ account.data.drop serialized.length }

/-! ## The entry point -/

/-- The first bytes of the hash of `global:initialize`. -/
def initializeDiscriminator : Bytes := [175, 175, 109, 31, 13, 152, 155, 237]

def runInitialize (infos : List AccountInfo) (bank : Bank) : Except InstructionError Bank :=
  (Initialize.tryAccounts rt derive infos bank).map Initialize.execute

def runSwapRouteV3 (venue : VenueProgram) (infos : List AccountInfo) (data : Bytes) (bank : Bank) :
    Except InstructionError Bank :=
  match decodeSwapRouteV3 data with
  | none => .error (.anchor .instructionDidNotDeserialize)
  | some ((amount, mints, swaps), _) => do
      let ctx ← (SwapRouteV3.tryAccounts derive infos bank).mapError .anchor
      let run ← (execute rt venue ctx amount mints swaps bank).mapError .route
      pure run.final

/-- `try_entry`: the instruction is chosen by the first bytes of the data. -/
def dispatch (venue : VenueProgram) (infos : List AccountInfo) (data : Bytes) (bank : Bank) :
    Except InstructionError Bank :=
  if initializeDiscriminator.isPrefixOf data then runInitialize rt derive infos bank
  else if [swapRouteV3Discriminator].isPrefixOf data then
    runSwapRouteV3 rt derive venue infos data bank
  else .error (.anchor .instructionFallbackNotFound)

end QuayTitan.Route
