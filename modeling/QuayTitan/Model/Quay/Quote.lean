import QuayTitan.Model.Quay.Venue

/-! # The Quay venue: pricing -/

namespace QuayTitan.Quay

def titanRouterId : Pubkey := .ofBase58 "T1TANpTeScyeqVzzgNViGDNrkQ6qHz9KrSBS4aNXvGT"

/-- Room for external accounts in the quote path. -/
def extBufLen : ℕ := 4

namespace QuayVenue

variable (sdk : Sdk)

/-- The side byte of a pair of mints. -/
def sideOf (self : QuayVenue) (inputMint outputMint : Pubkey) :
    Except TradingVenueError UInt8 :=
  if inputMint = self.baseMint ∧ outputMint = self.quoteMint then .ok sideSellBase
  else if inputMint = self.quoteMint ∧ outputMint = self.baseMint then .ok sideBuyBase
  else .error (.invalidMint (.pubkey inputMint))

/-- The decimals of a mint of the pair. -/
def decimalsOf (self : QuayVenue) (mint : Pubkey) (missing : String) :
    Except TradingVenueError UInt8 :=
  okOrElse ((self.tokens.find? (·.pubkey = mint)).map (·.decimals.toUInt32.toUInt8))
    (.missingState (.staticStr missing))

/-- The external accounts that fit the buffer, in binding order. -/
def extAccounts (self : QuayVenue) : List ExtAccount :=
  ((self.extKeys.zip self.extData).take extBufLen).map fun (key, data) => ⟨key, data⟩

/-- What the simulator is given for `amountIn` atoms. -/
def simulationInputs (self : QuayVenue) (side baseDecimals quoteDecimals : UInt8)
    (amountIn : UInt64) : SwapSimulationInputs where
  strategyData := self.strategyData
  marketMakerData := self.mmData
  quotesData := self.quotesData
  globalConfigData := self.globalConfigData
  currentSlot := self.currentSlot
  currentUnixSec := self.currentUnixSec
  side := side
  amountIn := amountIn
  minAmountOut := 0
  baseDecimals := baseDecimals
  quoteDecimals := quoteDecimals
  tx := { ixDepth := 2, txFlags := 0, entrypointProgram := titanRouterId, signers := [] }
  lastRestartSlot := 0
  extAccounts := self.extAccounts

/-- Output atoms of an `amt`-atom swap, `none` when the curve refuses that size. -/
def simulateOut (self : QuayVenue) (side baseDecimals quoteDecimals : UInt8) (amt : UInt64) :
    Option UInt64 :=
  (sdk.simulateSwapIn (self.simulationInputs side baseDecimals quoteDecimals amt)).toOption.map
    SwapSimulation.outToTaker

def priceProbeIn (self : QuayVenue) (side : UInt8) : UInt64 :=
  if side = sideSellBase then self.priceProbeBase else self.priceProbeQuote

end QuayVenue

/-- The backward difference at `a`, else the average rate. -/
def backwardPrice (simulateOut : UInt64 → Option UInt64) (h a out : UInt64) : Price :=
  match simulateOut (saturatingSub a h) with
  | some down => if down < out then ⟨(out - down).toNat, h.toNat⟩ else ⟨out.toNat, a.toNat⟩
  | none => ⟨out.toNat, a.toNat⟩

/-- The marginal price at `a`: the forward difference over one probe step, else the
backward one. -/
def marginalPrice (simulateOut : UInt64 → Option UInt64) (priceProbeIn a out : UInt64) : Price :=
  let h := max priceProbeIn 1
  match simulateOut (saturatingAdd a h) with
  | some up =>
      if out < up then ⟨(up - out).toNat, h.toNat⟩ else backwardPrice simulateOut h a out
  | none => backwardPrice simulateOut h a out

/-- The result for a request whose pair and venue state were accepted. -/
def pricedQuote (simulateOut : UInt64 → Option UInt64) (priceProbeIn : UInt64)
    (request : QuoteRequest) : QuoteResult :=
  if request.amount = 0 then {
    inputMint := request.inputMint
    outputMint := request.outputMint
    amount := 0
    expectedOutput := 0
    notEnoughLiquidity := false
    price := match simulateOut priceProbeIn with
      | some out => ⟨out.toNat, priceProbeIn.toNat⟩
      | none => ⟨0, 1⟩ }
  else match simulateOut request.amount with
    | none => {
      inputMint := request.inputMint
      outputMint := request.outputMint
      amount := request.amount
      expectedOutput := 0
      notEnoughLiquidity := true
      price := ⟨0, 1⟩ }
    | some out => {
      inputMint := request.inputMint
      outputMint := request.outputMint
      amount := request.amount
      expectedOutput := out
      notEnoughLiquidity := false
      price := marginalPrice simulateOut priceProbeIn request.amount out }

namespace QuayVenue

variable (sdk : Sdk)

def computeQuote (self : QuayVenue) (request : QuoteRequest) :
    Except TradingVenueError QuoteResult := do
  if request.swapType = .exactOut then throw .exactOutNotSupported
  let side ← self.sideOf request.inputMint request.outputMint
  -- The same gate as `initialized`.
  if self.routingFlags &&& sdk.routeTitan = 0 ∨ !self.hasAllState ∨ !self.haltsClear then
    throw (.notInitialized (.pubkey self.strategyKey))
  let baseDecimals ← self.decimalsOf self.baseMint "base TokenInfo"
  let quoteDecimals ← self.decimalsOf self.quoteMint "quote TokenInfo"
  return pricedQuote (self.simulateOut sdk side baseDecimals quoteDecimals)
    (self.priceProbeIn side) request

end QuayVenue

end QuayTitan.Quay
