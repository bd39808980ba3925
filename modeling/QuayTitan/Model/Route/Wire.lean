import QuayTitan.Library.Borsh
import QuayTitan.Model.Route.State

/-! # The instruction data of `swap_route_v3` -/

namespace QuayTitan.Route

open ByteFields Borsh

def swapRouteV3Discriminator : UInt8 := 42

/-- The derived codec of the selector. -/
def Venue.codec : Codec Venue :=
  (Codec.variant 0 Codec.bool).transport (fun | .quay sellBase => sellBase) .quay
    (fun _ => rfl) fun _ _ => rfl

/-- The derived codec of a leg: its fields in order. -/
def SwapSpecInputV2.codec : Codec SwapSpecInputV2 :=
  (Venue.codec.pair (Codec.u8.pair (Codec.u8.pair (Codec.u32.pair Codec.u8)))).transport
    (fun swap => (swap.venue, swap.from, swap.to, swap.weightNanos, swap.nAccounts))
    (fun (venue, «from», «to», weightNanos, nAccounts) =>
      ⟨venue, «from», «to», weightNanos, nAccounts⟩)
    (fun _ => rfl) fun _ _ => rfl

/-- The arguments of the instruction: `amount`, `mints`, `swaps`. -/
def swapRouteV3Args : Codec (UInt64 × UInt8 × List SwapSpecInputV2) :=
  Codec.u64.pair (Codec.u8.pair (Codec.vec SwapSpecInputV2.codec))

/-- The arguments found in instruction data, and the bytes after them. -/
def decodeSwapRouteV3 : Bytes → Option ((UInt64 × UInt8 × List SwapSpecInputV2) × Bytes)
  | [] => none
  | discriminator :: args =>
      if discriminator = swapRouteV3Discriminator then swapRouteV3Args.decode args else none

end QuayTitan.Route
