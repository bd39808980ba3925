import QuayTitan.Model.AccountCaching
import QuayTitan.Model.Quay.Venue

/-! # Venues over the RPC-backed cache

`update_state` with an `RpcClientCache` for its accounts cache, and the venues of a router that
share one. -/

namespace QuayTitan.Quay

open AccountCaching

variable (sdk : Sdk)

/-- The outcome of an update beside the cache it went through. -/
def settle (cache : RpcClientCache) : EStateM.Result TradingVenueError QuayVenue PUnit →
    EStateM.Result (Stop TradingVenueError) (QuayVenue × RpcClientCache) PUnit
  | .ok _ venue => .ok ⟨⟩ (venue, cache)
  | .error e venue => .error (.returned e) (venue, cache)

/-- The venue asks the cache once; a panic in the cache unwinds through the update. -/
def QuayVenue.updateThrough (rpc : RpcClient) (self : QuayVenue) (cache : RpcClientCache) :
    EStateM.Result (Stop TradingVenueError) (QuayVenue × RpcClientCache) PUnit :=
  match getAccounts rpc self.requiredUpdatePubkeys cache with
  | .ok accounts cache => settle cache (updateState sdk ⟨fun _ => .ok accounts⟩ self)
  | .error (.returned e) cache => settle cache (updateState sdk ⟨fun _ => .error e⟩ self)
  | .error .panicked cache => .error .panicked (self, cache)

/-- The venues of a router and the cache they share. -/
structure Session (ι : Type) where
  venues : ι → QuayVenue
  cache : RpcClientCache

namespace Session

variable {ι : Type} [DecidableEq ι]

def reset (self : Session ι) : Session ι := { self with cache := self.cache.resetCache }

/-- The session after one venue was updated, whether the update succeeded or not. -/
def update (rpc : RpcClient) (i : ι) (self : Session ι) : Session ι :=
  let after := Attempts.finalState ((self.venues i).updateThrough sdk rpc self.cache)
  ⟨Function.update self.venues i after.1, after.2⟩

end Session

end QuayTitan.Quay
