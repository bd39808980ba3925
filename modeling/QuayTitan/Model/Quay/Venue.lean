import QuayTitan.Model.Quay.Sdk
import QuayTitan.Library.Attempts

/-! # The Quay venue: construction and refresh -/

namespace QuayTitan.Quay

open ByteFields

/-! ## The clock sysvar -/

def clockSlotOffset : ℕ := 0
def clockUnixTsOffset : ℕ := 32
def clockMinLen : ℕ := clockUnixTsOffset + 8

def decodeClock (data : Bytes) : Option (UInt64 × Int64) :=
  if data.length < clockMinLen then none
  else do
    let slot ← getLE data clockSlotOffset 8
    let unixSec ← getLE data clockUnixTsOffset 8
    some (UInt64.ofNat slot, (UInt64.ofNat unixSec).toInt64)

/-! ## State -/

/-- One Quay strategy as a trading venue. -/
@[ext]
structure QuayVenue where
  programId : Pubkey
  strategyKey : Pubkey
  strategyData : Bytes
  mmKey : Pubkey
  mmData : Bytes
  quotesKey : Pubkey
  quotesData : Bytes
  globalConfigKey : Pubkey
  globalConfigData : Bytes
  baseMint : Pubkey
  quoteMint : Pubkey
  vaultBaseKey : Pubkey
  vaultQuoteKey : Pubkey
  extKeys : List Pubkey
  extData : List Bytes
  tokens : List TokenInfo
  routingFlags : UInt8
  cfgSwapHalted : UInt8
  cfgProtocolHalted : UInt8
  strategyFrozen : UInt8
  strategyFrozenAdmin : UInt8
  mmFrozen : UInt8
  mmFrozenAdmin : UInt8
  mmHaltedAdmin : UInt8
  priceProbeBase : UInt64
  priceProbeQuote : UInt64
  currentSlot : UInt64
  currentUnixSec : Int64
deriving DecidableEq

variable (sdk : Sdk)

/-- A decoder of the SDK, with its error as the venue reports it. -/
def decode {α : Type} (what : String) (result : Except String α) :
    Except TradingVenueError α :=
  result.mapError fun e => .deserializationFailed (.string (what ++ ": " ++ e))

namespace QuayVenue

def hasAllState (self : QuayVenue) : Bool :=
  self.extData.length = self.extKeys.length && !self.mmData.isEmpty &&
    !self.quotesData.isEmpty && !self.globalConfigData.isEmpty

def haltsClear (self : QuayVenue) : Bool :=
  self.cfgSwapHalted = 0 && self.cfgProtocolHalted = 0 && self.strategyFrozen = 0 &&
    self.strategyFrozenAdmin = 0 && self.mmFrozen = 0 && self.mmFrozenAdmin = 0 &&
    self.mmHaltedAdmin = 0

def initialized (self : QuayVenue) : Bool :=
  self.routingFlags &&& sdk.routeTitan ≠ 0 && self.hasAllState && self.haltsClear

/-! ## Construction -/

def fromAccount (pubkey : Pubkey) (account : Account) : Except TradingVenueError QuayVenue := do
  let strategy ← decode "StrategyHeader" (sdk.strategyTryFromAccount account.data)
  let programId := account.owner
  let mmKey := sdk.marketMakerPda programId strategy.owner
  let extKeys ← decode "ext binding" (sdk.extAccountKeys strategy account.data)
  return {
    programId
    strategyKey := pubkey
    strategyData := account.data
    mmKey
    mmData := []
    quotesKey := strategy.quotesAccount
    quotesData := []
    globalConfigKey := sdk.globalConfigPda programId
    globalConfigData := []
    baseMint := strategy.baseMint
    quoteMint := strategy.quoteMint
    vaultBaseKey := sdk.vaultPda programId mmKey strategy.baseMint
    vaultQuoteKey := sdk.vaultPda programId mmKey strategy.quoteMint
    extKeys
    extData := []
    tokens := []
    routingFlags := strategy.routingFlags
    -- Halted until the first update has read the real bytes.
    cfgSwapHalted := 1
    cfgProtocolHalted := 1
    strategyFrozen := 1
    strategyFrozenAdmin := 1
    mmFrozen := 1
    mmFrozenAdmin := 1
    mmHaltedAdmin := 1
    priceProbeBase := strategy.priceProbeBase
    priceProbeQuote := strategy.priceProbeQuote
    currentSlot := 0
    currentUnixSec := 0 }

/-! ## Refresh -/

def requiredUpdatePubkeys (self : QuayVenue) : List Pubkey :=
  [self.strategyKey, self.mmKey, self.quotesKey, self.globalConfigKey, self.baseMint,
    self.quoteMint, self.vaultBaseKey, self.vaultQuoteKey, sysvarClockId] ++ self.extKeys

end QuayVenue

/-- The account of a slot; the answer always covers the nine fixed slots. -/
def accountAt (accounts : List (Option Account)) (slot : ℕ) (key : Pubkey) :
    Except TradingVenueError Account :=
  okOrElse accounts[slot]?.join (.noAccountFound (.pubkey key))

/-- The loop over the bound external accounts: the first missing one clears the data. -/
def collectExtData (accounts : List (Option Account)) :
    (keys : List Pubkey) → (i : ℕ) → (extData : List Bytes) → List Bytes
  | [], _, extData => extData
  | _ :: keys, i, extData =>
      match accounts[9 + i]?.join with
      | some acc => collectExtData accounts keys (i + 1) (extData ++ [acc.data])
      | none => []

/-- The data of the external accounts, fetched under the binding `extKeys`, when the fresh
binding is the same one. -/
def freshExtData (accounts : List (Option Account)) (extKeys freshExtKeys : List Pubkey) :
    List Bytes :=
  if freshExtKeys = extKeys then
    let extData := collectExtData accounts freshExtKeys 0 []
    if extData.length ≠ freshExtKeys.length then [] else extData
  else []

namespace QuayVenue

/-- Fetch the accounts of the venue and commit them once every one of them is decoded. -/
def refreshState (cache : AccountsCache) : EStateM TradingVenueError QuayVenue PUnit := do
  let self ← get
  let needed := self.requiredUpdatePubkeys
  let accounts ← ofExcept ((cache.getAccounts needed).mapError .accountCacheError)
  ofExcept (if accounts.length ≠ needed.length then
    .error .failedToFetchMultipleAccountData else .ok ())
  let strategyAccount ← ofExcept (accountAt accounts 0 self.strategyKey)
  let strategy ← ofExcept
    (decode "StrategyHeader" (sdk.strategyTryFromAccount strategyAccount.data))
  let mmAccount ← ofExcept (accountAt accounts 1 self.mmKey)
  let mm ← ofExcept
    (decode "MarketMakerHeader" (sdk.marketMakerTryFromAccount mmAccount.data))
  let quotesAccount ← ofExcept (accountAt accounts 2 self.quotesKey)
  let cfgAccount ← ofExcept (accountAt accounts 3 self.globalConfigKey)
  let cfg ← ofExcept (decode "GlobalConfig" (sdk.globalConfigTryFromAccount cfgAccount.data))
  let baseMintAccount ← ofExcept (accountAt accounts 4 self.baseMint)
  let quoteMintAccount ← ofExcept (accountAt accounts 5 self.quoteMint)
  let baseInfo ← ofExcept (TokenInfo.new sdk.unpackMint self.baseMint baseMintAccount 0)
  let quoteInfo ← ofExcept (TokenInfo.new sdk.unpackMint self.quoteMint quoteMintAccount 0)
  -- The simulator does not read the vaults, they only have to exist.
  let _ ← ofExcept (accountAt accounts 6 self.vaultBaseKey)
  let _ ← ofExcept (accountAt accounts 7 self.vaultQuoteKey)
  let clockAccount ← ofExcept (accountAt accounts 8 sysvarClockId)
  let clock ← ofExcept (okOrElse (decodeClock clockAccount.data)
    (.deserializationFailed (.staticStr "Clock sysvar too short")))
  let freshExtKeys ← ofExcept
    (decode "ext binding" (sdk.extAccountKeys strategy strategyAccount.data))
  let extData := freshExtData accounts self.extKeys freshExtKeys
  modify fun self => { self with
    strategyData := strategyAccount.data
    extKeys := freshExtKeys
    extData := extData
    strategyFrozen := strategy.frozen
    strategyFrozenAdmin := strategy.frozenAdmin
    routingFlags := strategy.routingFlags
    priceProbeBase := strategy.priceProbeBase
    priceProbeQuote := strategy.priceProbeQuote
    mmData := mmAccount.data
    mmFrozen := mm.frozen
    mmFrozenAdmin := mm.frozenAdmin
    mmHaltedAdmin := mm.haltedAdmin
    quotesData := quotesAccount.data
    globalConfigData := cfgAccount.data
    cfgSwapHalted := cfg.swapHalted
    cfgProtocolHalted := cfg.protocolHalted
    tokens := [baseInfo, quoteInfo]
    currentSlot := clock.1
    currentUnixSec := clock.2 }

def updateState (cache : AccountsCache) : EStateM TradingVenueError QuayVenue PUnit :=
  refreshState sdk cache

end QuayVenue

end QuayTitan.Quay
