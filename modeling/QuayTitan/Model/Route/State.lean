import QuayTitan.Model.Token

/-! # State and errors of the route program -/

namespace QuayTitan.Route

open ByteFields

def maxSwaps : ℕ := 12
def maxMints : ℕ := 12

/-- The venue of one route leg; `sellBase` is Quay's `side`. -/
inductive Venue
  | quay (sellBase : Bool)
deriving DecidableEq

structure SwapSpecInputV2 where
  venue : Venue
  «from» : UInt8
  «to» : UInt8
  weightNanos : UInt32
  nAccounts : UInt8
deriving DecidableEq

inductive TemplateError
  | invalidSwapInput
  | missingRemainingAccount
  | invalidAccountData
  | reservedBalanceViolation
deriving DecidableEq

/-- Why an instruction stops: an error of the template, a failed call into another
program, or an index past the end of an array. -/
inductive RouteError
  | template (error : TemplateError)
  | program (error : ProgramError)
  | indexOutOfBounds
deriving DecidableEq

/-- `require!`. -/
def require (condition : Prop) [Decidable condition] (error : TemplateError) :
    Except RouteError Unit :=
  check condition (.template error)

/-- `Option::ok_or`. -/
def okOr {α : Type*} (value : Option α) (error : RouteError) : Except RouteError α :=
  match value with
  | some a => .ok a
  | none => .error error

/-- A call into another program; its failure ends the instruction. -/
def invoke {α : Type*} (result : Except ProgramError α) : Except RouteError α :=
  result.mapError .program

/-- The accounts named by the `SwapRouteV3` context. -/
structure SwapRouteV3 where
  payer : Pubkey
  user : Pubkey
  titanPda : Pubkey
  inputTokenAccount : Pubkey
  outputTokenAccount : Pubkey
  tokenProgram : Pubkey
  token2022Program : Pubkey
  tokenLedger : Option Pubkey

/-- Remaining accounts are the TitanPDA token accounts of the route mints, the mints,
and the accounts of each leg with its venue program last. -/
structure Context where
  accounts : SwapRouteV3
  remainingAccounts : List AccountInfo

/-- The `index`-th remaining account. -/
def Context.get (ctx : Context) (index : ℕ) : Except RouteError AccountInfo :=
  okOr ctx.remainingAccounts[index]? (.template .missingRemainingAccount)

/-! ## Reading accounts -/

def accountExists (account : Account) : Bool :=
  0 < account.lamports && 0 < account.data.length

def isNativeMint (mint : Pubkey) : Bool := mint = nativeMintId

def extractTokenAmount (account : Account) : Except RouteError ℕ :=
  okOr (getLE account.data 64 8) (.template .invalidAccountData)

/-- `extract_token_amount(..).unwrap_or(0)`: a closed account counts as zero. -/
def tokenAmount (account : Account) : ℕ := (getLE account.data 64 8).getD 0

def extractTokenOwner (account : Account) : Except RouteError Pubkey :=
  okOr (getKey account.data 32) (.template .invalidAccountData)

def extractMintDecimals (mint : Account) : Except RouteError UInt8 :=
  okOr mint.data[44]? (.template .invalidAccountData)

def isTitanPdaTokenAccount (account : Account) (expectedAuthority : Pubkey) : Bool :=
  if account.owner ≠ splTokenId ∧ account.owner ≠ token2022Id then false
  else if account.data.length < 165 then false
  else match extractTokenOwner account with
    | .error _ => false
    | .ok owner => owner = expectedAuthority

def getTokenProgramForMint (mint : Account) (tokenProgram token2022Program : Pubkey) :
    Pubkey :=
  if mint.owner = token2022Id then token2022Program else tokenProgram

/-! ## The bitmap of protected accounts -/

structure TitanPdaBitmap where
  bits : Fin 4 → BitVec 64

namespace TitanPdaBitmap

def new : TitanPdaBitmap := ⟨fun _ => 0⟩

def set (bitmap : TitanPdaBitmap) (index : ℕ) : TitanPdaBitmap :=
  if h : index < 256 then
    let word : Fin 4 := ⟨index / 64, by omega⟩
    ⟨Function.update bitmap.bits word (bitmap.bits word ||| (1#64 <<< (index % 64)))⟩
  else bitmap

def isSet (bitmap : TitanPdaBitmap) (index : ℕ) : Bool :=
  if h : index < 256 then
    bitmap.bits ⟨index / 64, by omega⟩ &&& (1#64 <<< (index % 64)) ≠ 0
  else false

end TitanPdaBitmap

end QuayTitan.Route
