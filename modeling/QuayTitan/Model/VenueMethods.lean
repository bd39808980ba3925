import QuayTitan.Model.Bounds
import QuayTitan.Model.Quay.Swap
import QuayTitan.Model.Quay.Quote

/-! # The default methods of a trading venue

What the trait derives from the token metadata and the quotes of a venue. -/

namespace QuayTitan

/-- The errors of the default methods: an index without a token, or an error of the venue. -/
inductive VenueMethodError
  | tokenInfoIndexError (index : ℕ)
  | venue (error : TradingVenueError)
deriving DecidableEq

def Stop.mapError {ε ε' : Type} (f : ε → ε') : Stop ε → Stop ε'
  | .returned error => .returned (f error)
  | .panicked => .panicked

namespace TradingVenue

def tradableMints (tokenInfo : List TokenInfo) : List Pubkey := tokenInfo.map TokenInfo.pubkey

def decimals (tokenInfo : List TokenInfo) : List Int32 := tokenInfo.map TokenInfo.decimals

/-- The indices that fit a byte. -/
def tokenIndices (tokenInfo : List TokenInfo) : List UInt8 :=
  (List.range tokenInfo.length).filterMap fun index =>
    if index < 2 ^ 8 then some (UInt8.ofNat index) else none

/-- Every pair of distinct token indices. -/
def directionsNum (tokenInfo : List TokenInfo) : List (UInt8 × UInt8) :=
  (tokenIndices tokenInfo).flatMap fun i =>
    ((tokenIndices tokenInfo).filter (· ≠ i)).map fun j => (i, j)

def getToken (tokenInfo : List TokenInfo) (i : ℕ) : Except VenueMethodError TokenInfo :=
  match tokenInfo[i]? with
  | some token => .ok token
  | none => .error (.tokenInfoIndexError i)

/-- The boundary search over the exact-in quotes between two tokens. -/
def bounds (tokenInfo : List TokenInfo)
    (quote : QuoteRequest → Except TradingVenueError QuoteResult) (tknInInd tknOutInd : UInt8) :
    Except (Stop VenueMethodError) (UInt64 × UInt64) := do
  let input ← (getToken tokenInfo tknInInd.toNat).mapError .returned
  let output ← (getToken tokenInfo tknOutInd.toNat).mapError .returned
  let f := fun amount => quote {
    inputMint := input.pubkey
    outputMint := output.pubkey
    amount
    swapType := .exactIn }
  (Bounds.findBoundaries f).mapError (Stop.mapError .venue)

end TradingVenue

namespace Quay.QuayVenue

def tradableMints (self : QuayVenue) : List Pubkey := TradingVenue.tradableMints self.tokens

def directionsNum (self : QuayVenue) : List (UInt8 × UInt8) :=
  TradingVenue.directionsNum self.tokens

def bounds (sdk : Sdk) (self : QuayVenue) :
    (tknInInd tknOutInd : UInt8) → Except (Stop VenueMethodError) (UInt64 × UInt64) :=
  TradingVenue.bounds self.tokens (self.computeQuote sdk)

end Quay.QuayVenue

end QuayTitan
