import QuayTitan.Model.Account

/-! # The trading-venue interface

Requests, quotes, token metadata and errors shared by the venues of the router. -/

namespace QuayTitan

open ByteFields

/-! ## Errors -/

inductive ErrorInfo
  | pubkey (key : Pubkey)
  | string (text : String)
  | staticStr (text : String)
deriving DecidableEq

inductive AccountCacheError
  | failedToFetchAccount (clientError : String)
  | failedToAcquireWriteLock
  | failedToAcquireReadLock
deriving DecidableEq

/-- The errors the modelled functions raise. -/
inductive TradingVenueError
  | noAccountFound (info : ErrorInfo)
  | failedToFetchMultipleAccountData
  | deserializationFailed (info : ErrorInfo)
  | notInitialized (info : ErrorInfo)
  | missingState (info : ErrorInfo)
  | invalidMint (info : ErrorInfo)
  | exactOutNotSupported
  | accountCacheError (error : AccountCacheError)
  | boundarySearchFailed (info : ErrorInfo)
  | noQuotableValue (info : ErrorInfo)
deriving DecidableEq

/-- `Option::ok_or_else`. -/
def okOrElse {α : Type} (value : Option α) (error : TradingVenueError) :
    Except TradingVenueError α :=
  match value with
  | some a => .ok a
  | none => .error error

/-- Why a call gives no value: it returned an error, or it panicked. -/
inductive Stop (ε : Type)
  | returned (error : ε)
  | panicked
deriving DecidableEq

/-! ## Quotes -/

inductive SwapType
  | exactIn
  | exactOut
deriving DecidableEq

structure QuoteRequest where
  inputMint : Pubkey
  outputMint : Pubkey
  amount : UInt64
  swapType : SwapType
deriving DecidableEq

/-- A price as the division that computes it. -/
structure Price where
  numerator : ℕ
  denominator : ℕ
deriving DecidableEq

structure QuoteResult where
  inputMint : Pubkey
  outputMint : Pubkey
  amount : UInt64
  expectedOutput : UInt64
  notEnoughLiquidity : Bool
  price : Price
deriving DecidableEq

def saturatingAdd (a b : UInt64) : UInt64 := if a.toNat + b.toNat < 2 ^ 64 then a + b else -1

def saturatingSub (a b : UInt64) : UInt64 := if b ≤ a then a - b else 0

/-! ## Accounts and token metadata -/

/-- What a cache answers to the requests of one update. -/
structure AccountsCache where
  getAccounts : List Pubkey → Except AccountCacheError (List (Option Account))

/-- What `StateWithExtensions::<Mint>::unpack` finds in a mint: the transfer fee of an epoch
is its basis points and its maximum. -/
structure MintState where
  decimals : UInt8
  epochFee : (epoch : UInt64) → Option (UInt16 × UInt64)

structure TokenInfo where
  pubkey : Pubkey
  decimals : Int32
  isToken2022 : Bool
  transferFee : Option UInt16
  maximumFee : Option UInt64
deriving DecidableEq

namespace TokenInfo

def new (unpackMint : Bytes → Option MintState) (pubkey : Pubkey) (account : Account)
    (epoch : UInt64) : Except TradingVenueError TokenInfo :=
  match unpackMint account.data with
  | some mint => .ok {
      pubkey
      decimals := mint.decimals.toUInt32.toInt32
      isToken2022 := account.owner = token2022Id
      transferFee := (mint.epochFee epoch).map Prod.fst
      maximumFee := (mint.epochFee epoch).map Prod.snd }
  | none => .error (.deserializationFailed (.pubkey pubkey))

def getTokenProgram (info : TokenInfo) : Pubkey :=
  if info.isToken2022 then token2022Id else splTokenId

end TokenInfo

/-! ## Venues -/

inductive PoolProtocol
  | quay
deriving DecidableEq

/-- What the route builder asks of a venue. -/
structure TradingVenue where
  programId : Pubkey
  protocol : PoolProtocol
  getTokenInfo : List TokenInfo
  generateSwapInstruction : QuoteRequest → (user : Pubkey) → Except TradingVenueError Instruction

end QuayTitan
