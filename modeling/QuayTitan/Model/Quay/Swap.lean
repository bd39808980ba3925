import QuayTitan.Model.Quay.Venue
import QuayTitan.Model.Token

/-! # The Quay venue: swap instructions -/

namespace QuayTitan.Quay.QuayVenue

variable (sdk : Sdk) (rt : Runtime)

/-- The token program of one of the mints of the pair. -/
def tokenProgramFor (self : QuayVenue) (mint : Pubkey) : Option Pubkey :=
  (self.tokens.find? (·.pubkey = mint)).map TokenInfo.getTokenProgram

def buildSwapIx (self : QuayVenue) (request : QuoteRequest) (user : Pubkey) :
    Except TradingVenueError Instruction := do
  if request.swapType = .exactOut then throw .exactOutNotSupported
  let side ← (
    if request.inputMint = self.baseMint ∧ request.outputMint = self.quoteMint then
      .ok sideSellBase
    else if request.inputMint = self.quoteMint ∧ request.outputMint = self.baseMint then
      .ok sideBuyBase
    else .error (.invalidMint (.pubkey request.inputMint)))
  let baseProgram ← okOrElse (self.tokenProgramFor self.baseMint)
    (.missingState (.staticStr "base TokenInfo"))
  let quoteProgram ← okOrElse (self.tokenProgramFor self.quoteMint)
    (.missingState (.staticStr "quote TokenInfo"))
  -- The route enforces slippage, so the swap has no minimum output.
  return sdk.swapWithExt {
    programId := self.programId
    strategy := self.strategyKey
    marketMaker := self.mmKey
    quotes := self.quotesKey
    baseMint := self.baseMint
    quoteMint := self.quoteMint
    taker := user
    takerAtaBase := rt.ataAddress user self.baseMint baseProgram
    takerAtaQuote := rt.ataAddress user self.quoteMint quoteProgram
    baseTokenProgram := baseProgram
    quoteTokenProgram := quoteProgram
    extKeys := self.extKeys } request.amount 0 side

/-- Both token programs, since every mint has its own, and the system program. -/
def programDependencies (_self : QuayVenue) : List Pubkey :=
  [splTokenId, token2022Id, systemProgramId]

/-- The keys of the address lookup table: what the swaps of all users share. -/
def getLookupTableKeys (self : QuayVenue) (_cache : Option AccountsCache) :
    Except TradingVenueError (List Pubkey) :=
  .ok ([self.programId, self.globalConfigKey, self.strategyKey, self.mmKey, self.quotesKey,
    self.vaultBaseKey, self.vaultQuoteKey, self.baseMint, self.quoteMint, sysvarInstructionsId] ++
      self.extKeys ++ self.programDependencies)

/-- The venue as the route builder sees it. -/
def tradingVenue (self : QuayVenue) : TradingVenue where
  programId := self.programId
  protocol := .quay
  getTokenInfo := self.tokens
  generateSwapInstruction := self.buildSwapIx sdk rt

end QuayTitan.Quay.QuayVenue
