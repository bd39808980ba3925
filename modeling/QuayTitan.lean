import QuayTitan.Verification.Route.Chains
import QuayTitan.Verification.Route.Lockstep
import QuayTitan.Verification.Route.Lifecycle
import QuayTitan.Verification.Route.Wrapping
import QuayTitan.Verification.SwapRoute.Slicing
import QuayTitan.Verification.Quay.Binding
import QuayTitan.Verification.Quay.PriceSwitches
import QuayTitan.Verification.Quay.Outcome
import QuayTitan.Verification.Quay.RoutedFill
import QuayTitan.Verification.Quay.LookupTable
import QuayTitan.Verification.Quay.Discovery
import QuayTitan.Verification.Quay.Interface
import QuayTitan.Verification.AccountCaching.Batch
import QuayTitan.Verification.Bounds
import QuayTitan.Verification.Route.Spending
import QuayTitan.Verification.SwapRoute.Sending
