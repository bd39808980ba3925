import QuayTitan.Library.Fallible
import QuayTitan.Model.TradingVenue

/-! # The boundary search over a venue's quotes -/

namespace QuayTitan.Bounds

/-- A quoting function. -/
abbrev Quoting := UInt64 → Except TradingVenueError QuoteResult

def maxU64 : UInt64 := 18446744073709551615

def scalingFactor : UInt64 := 2

/-- `u64::saturating_mul`. -/
def saturatingMul (a b : UInt64) : UInt64 :=
  if a.toNat * b.toNat < 2 ^ 64 then a * b else maxU64

/-- Subtraction of `u64` values; an underflow panics. -/
def checkedSub (a b : UInt64) : Except (Stop TradingVenueError) UInt64 :=
  if b ≤ a then .ok (a - b) else .error .panicked

/-- Addition of `u64` values; an overflow panics. -/
def checkedAdd (a b : UInt64) : Except (Stop TradingVenueError) UInt64 :=
  if a.toNat + b.toNat < 2 ^ 64 then .ok (a + b) else .error .panicked

def validQuote (quote : QuoteResult) : Bool :=
  !(quote.notEnoughLiquidity || quote.expectedOutput == 0)

/-- The function quotes an amount with a valid result; an error counts as invalid. -/
def quotes (f : Quoting) (amount : UInt64) : Bool :=
  match f amount with
  | .ok result => validQuote result
  | .error _ => false

/-! ## Coarse search -/

theorem lt_saturatingMul {low high : UInt64} (h : ¬ (high ≤ low ∨ high = maxU64)) :
    low.toNat < high.toNat ∧ high.toNat < maxU64.toNat := by
  obtain ⟨hle, hmax⟩ := not_or.mp h
  rw [UInt64.not_le, UInt64.lt_iff_toNat_lt] at hle
  have hne : high.toNat ≠ maxU64.toNat := fun heq => hmax (UInt64.toNat.inj heq)
  have hbound := high.toNat_lt
  refine ⟨hle, ?_⟩
  change high.toNat < 18446744073709551615
  change high.toNat ≠ 18446744073709551615 at hne
  omega

/-- The first loop: double until a quote is valid. -/
def expandLower (f : Quoting) (low high : UInt64) : UInt64 × UInt64 :=
  if quotes f high then (low, high)
  else if _h : saturatingMul high scalingFactor ≤ high ∨
      saturatingMul high scalingFactor = maxU64 then (high, maxU64)
  else expandLower f high (saturatingMul high scalingFactor)
termination_by maxU64.toNat - high.toNat
decreasing_by
  have := lt_saturatingMul _h
  omega

/-- The second loop: double until a quote is not valid. -/
def expandUpper (f : Quoting) (low high : UInt64) : UInt64 × UInt64 :=
  if quotes f high then
    if _h : saturatingMul high scalingFactor ≤ high ∨
        saturatingMul high scalingFactor = maxU64 then (high, maxU64)
    else expandUpper f high (saturatingMul high scalingFactor)
  else (low, high)
termination_by maxU64.toNat - high.toNat
decreasing_by
  have := lt_saturatingMul _h
  omega

structure CoarseBounds where
  lowerLow : UInt64
  lowerHigh : UInt64
  upperLow : UInt64
  upperHigh : UInt64
deriving DecidableEq

def findBoundariesCoarse (f : Quoting) : CoarseBounds :=
  let (lowerLow, lowerHigh) := expandLower f 0 1
  let upperHigh := saturatingMul lowerHigh scalingFactor
  if upperHigh ≤ lowerHigh then ⟨lowerLow, lowerHigh, lowerHigh, lowerHigh⟩
  else
    let (upperLow, upperHigh) := expandUpper f lowerHigh upperHigh
    ⟨lowerLow, lowerHigh, upperLow, upperHigh⟩

/-! ## Refinement -/

theorem checkedSub_ok {a b width : UInt64} (h : checkedSub a b = .ok width) :
    width.toNat + b.toNat = a.toNat := by
  rw [checkedSub] at h
  split at h
  · obtain rfl := Except.ok.inj h
    rw [UInt64.toNat_sub_of_le a b ‹_›]
    have := UInt64.le_iff_toNat_le.mp ‹b ≤ a›
    omega
  · cases h

theorem checkedAdd_ok {a b sum : UInt64} (h : checkedAdd a b = .ok sum) :
    sum.toNat = a.toNat + b.toNat := by
  rw [checkedAdd] at h
  split at h
  · obtain rfl := Except.ok.inj h
    rw [UInt64.toNat_add, Nat.mod_eq_of_lt ‹_›]
  · cases h

/-- The midpoint of a wide interval lies strictly inside, although the halves are rounded
before they are added. -/
theorem midpoint_between {low high width mid : UInt64} (hwidth : checkedSub high low = .ok width)
    (hwide : 100 < width) (hmid : checkedAdd (high / 2) (low / 2) = .ok mid) :
    low.toNat < mid.toNat ∧ mid.toNat < high.toNat := by
  have hsub := checkedSub_ok hwidth
  have hadd := checkedAdd_ok hmid
  rw [UInt64.toNat_div, UInt64.toNat_div] at hadd
  have hlarge := UInt64.lt_iff_toNat_lt.mp hwide
  change 100 < width.toNat at hlarge
  change mid.toNat = high.toNat / 2 + low.toNat / 2 at hadd
  omega

/-- The loop of both refinements: the amounts that satisfy `p` move `high` down, the others
move `low` up. -/
def bisect (p : UInt64 → Bool) (low high : UInt64) :
    Except (Stop TradingVenueError) (UInt64 × UInt64) :=
  match _hwidth : checkedSub high low with
  | .error stop => .error stop
  | .ok width =>
      if _hwide : 100 < width then
        match _hmid : checkedAdd (high / 2) (low / 2) with
        | .error stop => .error stop
        | .ok mid => if p mid then bisect p low mid else bisect p mid high
      else .ok (low, high)
termination_by high.toNat - low.toNat
decreasing_by
  all_goals
    have := midpoint_between _hwidth _hwide _hmid
    omega

/-- The quotes at the ends, which only feed the log, are left out. -/
def refineLower (f : Quoting) (low high : UInt64) : Except (Stop TradingVenueError) UInt64 := do
  let (_, high) ← bisect (quotes f) low high
  return high

def refineUpper (f : Quoting) (low high : UInt64) : Except (Stop TradingVenueError) UInt64 := do
  let (low, _) ← bisect (fun amount => !quotes f amount) low high
  return low

def findBoundaries (f : Quoting) : Except (Stop TradingVenueError) (UInt64 × UInt64) := do
  let bounds := findBoundariesCoarse f
  if bounds.lowerLow = bounds.upperHigh then
    throw (.returned (.boundarySearchFailed
      (.staticStr "Search boundaries are all equal; search space collapsed")))
  if bounds.lowerHigh = maxU64 then
    throw (.returned (.noQuotableValue
      (.staticStr "No quotable value found; exponential search hit u64::MAX")))
  let lowerBound ← refineLower f bounds.lowerLow bounds.lowerHigh
  let upperBound ← refineUpper f bounds.upperLow bounds.upperHigh
  return (lowerBound, upperBound)

end QuayTitan.Bounds
