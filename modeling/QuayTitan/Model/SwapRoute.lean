import QuayTitan.Library.Borsh
import QuayTitan.Model.TradingVenue

/-! # The off-chain route builder -/

namespace QuayTitan.SwapRoute

open ByteFields Borsh

def swapRouteV3Discriminator : UInt8 := 42

/-- The weight of the entire available balance, in nanos. -/
def routeWeightAll : UInt32 := 1000000000

/-! ## Legs -/

/-- The builder's copy of the on-chain venue selector. -/
inductive Venue
  | quay (sellBase : Bool)
deriving DecidableEq

structure SwapSpecInputV2 where
  venue : Venue
  «from» : UInt8
  «to» : UInt8
  weightNanos : UInt32
  nAccounts : UInt8
deriving DecidableEq

def protocolToVenue (venue : TradingVenue) (request : QuoteRequest) :
    Except TradingVenueError Venue :=
  match venue.protocol with
  | .quay => do
      let baseMint ← okOrElse (venue.getTokenInfo.head?.map TokenInfo.pubkey)
        (.missingState (.staticStr "Quay token info"))
      return .quay (request.inputMint = baseMint)

/-- The accounts of a leg: those of the venue's instruction with TitanPDA no signer, then
the venue program. -/
def assembleLegAccounts (swapIx : Instruction) (titanPda venueProgramId : Pubkey) :
    List AccountMeta :=
  swapIx.accounts.map (fun acc =>
    if acc.pubkey = titanPda then { acc with isSigner := false } else acc) ++
  [⟨venueProgramId, false, false⟩]

def buildSwapLeg (venue : TradingVenue) (request : QuoteRequest) (titanPda : Pubkey)
    («from» «to» : UInt8) (weightNanos : UInt32) :
    Except TradingVenueError (SwapSpecInputV2 × List AccountMeta) := do
  let swapIx ← venue.generateSwapInstruction request titanPda
  let accounts := assembleLegAccounts swapIx titanPda venue.programId
  let legVenue ← protocolToVenue venue request
  return ({ venue := legVenue, «from», «to», weightNanos,
            nAccounts := UInt8.ofNat accounts.length }, accounts)

/-! ## Encoding -/

/-- The derived codec of the selector. -/
def Venue.codec : Codec Venue :=
  (Codec.variant 0 Codec.bool).transport (fun | .quay sellBase => sellBase) .quay
    (fun _ => rfl) fun _ _ => rfl

/-- The derived codec of a leg: its fields in order. -/
def SwapSpecInputV2.codec : Codec SwapSpecInputV2 :=
  (Venue.codec.pair (Codec.u8.pair (Codec.u8.pair (Codec.u32.pair Codec.u8)))).transport
    (fun swap => (swap.venue, swap.from, swap.to, swap.weightNanos, swap.nAccounts))
    (fun (venue, «from», «to», weightNanos, nAccounts) =>
      ⟨venue, «from», «to», weightNanos, nAccounts⟩)
    (fun _ => rfl) fun _ _ => rfl

def encodeSwapRouteV3Data (amount : UInt64) (mints : UInt8) (swaps : List SwapSpecInputV2) :
    Bytes :=
  [swapRouteV3Discriminator] ++ leBytes 8 amount.toNat ++ [mints] ++
    leBytes 4 (UInt32.ofNat swaps.length).toNat ++ swaps.flatMap SwapSpecInputV2.codec.encode

end QuayTitan.SwapRoute
