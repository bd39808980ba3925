import QuayTitan.Model.TradingVenue

/-! # The Quay SDK

The `quay_sdk` crate is a parameter of the model: its account decoders, its derived
addresses, its simulator and its instruction builder. -/

namespace QuayTitan.Quay

open ByteFields

def sideSellBase : UInt8 := 0
def sideBuyBase : UInt8 := 1

structure StrategyHeader where
  owner : Pubkey
  baseMint : Pubkey
  quoteMint : Pubkey
  quotesAccount : Pubkey
  frozen : UInt8
  frozenAdmin : UInt8
  routingFlags : UInt8
  priceProbeBase : UInt64
  priceProbeQuote : UInt64

structure MarketMakerHeader where
  frozen : UInt8
  frozenAdmin : UInt8
  haltedAdmin : UInt8

structure GlobalConfig where
  swapHalted : UInt8
  protocolHalted : UInt8

structure TxContext where
  ixDepth : ℕ
  txFlags : ℕ
  entrypointProgram : Pubkey
  signers : List Pubkey
deriving DecidableEq

structure ExtAccount where
  key : Pubkey
  data : Bytes
deriving DecidableEq

structure SwapSimulationInputs where
  strategyData : Bytes
  marketMakerData : Bytes
  quotesData : Bytes
  globalConfigData : Bytes
  currentSlot : UInt64
  currentUnixSec : Int64
  side : UInt8
  amountIn : UInt64
  minAmountOut : UInt64
  baseDecimals : UInt8
  quoteDecimals : UInt8
  tx : TxContext
  lastRestartSlot : UInt64
  extAccounts : List ExtAccount
deriving DecidableEq

structure SwapSimulation where
  outToTaker : UInt64

/-- The arguments of `ix::swap_with_ext`. -/
structure SwapAccounts where
  programId : Pubkey
  strategy : Pubkey
  marketMaker : Pubkey
  quotes : Pubkey
  baseMint : Pubkey
  quoteMint : Pubkey
  taker : Pubkey
  takerAtaBase : Pubkey
  takerAtaQuote : Pubkey
  baseTokenProgram : Pubkey
  quoteTokenProgram : Pubkey
  extKeys : List Pubkey

/-- The parts of `quay_sdk` the venue uses, and the mint decoder of the token library.
Decoders fail with the text of their error. -/
structure Sdk where
  routeTitan : UInt8
  strategyTryFromAccount : Bytes → Except String StrategyHeader
  extAccountKeys : StrategyHeader → Bytes → Except String (List Pubkey)
  marketMakerTryFromAccount : Bytes → Except String MarketMakerHeader
  globalConfigTryFromAccount : Bytes → Except String GlobalConfig
  marketMakerPda : (programId owner : Pubkey) → Pubkey
  globalConfigPda : (programId : Pubkey) → Pubkey
  vaultPda : (programId marketMaker mint : Pubkey) → Pubkey
  simulateSwapIn : SwapSimulationInputs → Except String SwapSimulation
  swapWithExt : SwapAccounts → (amountIn minAmountOut : UInt64) → (side : UInt8) → Instruction
  unpackMint : Bytes → Option MintState

end QuayTitan.Quay
