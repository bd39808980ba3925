import QuayTitan.Verification.Quay.MeanValue

/-! # The step behind a quoted price -/

namespace QuayTitan.Quay

open Attempts

variable {simulateOut : UInt64 → Option UInt64} {h a out : UInt64}

/-! ## Probes -/

/-- The price is taken from the forward probe, which gave `up`. -/
def ForwardTaken (simulateOut : UInt64 → Option UInt64) (h a out up : UInt64) : Prop :=
  simulateOut (saturatingAdd a h) = some up ∧ out < up

/-- The price is taken from the backward probe, which gave `down`. -/
def BackwardTaken (simulateOut : UInt64 → Option UInt64) (h a out down : UInt64) : Prop :=
  (∀ up, ¬ ForwardTaken simulateOut h a out up) ∧
    simulateOut (saturatingSub a h) = some down ∧ down < out

theorem marginalPrice_forward {priceProbeIn up : UInt64}
    (hprobe : ForwardTaken simulateOut (max priceProbeIn 1) a out up) :
    marginalPrice simulateOut priceProbeIn a out =
      ⟨(up - out).toNat, (max priceProbeIn 1).toNat⟩ := by
  simp only [marginalPrice, hprobe.1, if_pos hprobe.2]

theorem marginalPrice_not_forward {priceProbeIn : UInt64}
    (hprobe : ∀ up, ¬ ForwardTaken simulateOut (max priceProbeIn 1) a out up) :
    marginalPrice simulateOut priceProbeIn a out =
      backwardPrice simulateOut (max priceProbeIn 1) a out := by
  unfold marginalPrice
  cases hup : simulateOut (saturatingAdd a (max priceProbeIn 1)) with
  | none => simp only [hup]
  | some up =>
      have hflat : ¬ out < up := fun hlt => hprobe up ⟨hup, hlt⟩
      simp only [hup, if_neg hflat]

theorem marginalPrice_backward {priceProbeIn down : UInt64}
    (hprobe : BackwardTaken simulateOut (max priceProbeIn 1) a out down) :
    marginalPrice simulateOut priceProbeIn a out =
      ⟨(out - down).toNat, (max priceProbeIn 1).toNat⟩ := by
  rw [marginalPrice_not_forward hprobe.1]
  simp only [backwardPrice, hprobe.2.1, if_pos hprobe.2.2]

theorem marginalPrice_average {priceProbeIn : UInt64}
    (hforward : ∀ up, ¬ ForwardTaken simulateOut (max priceProbeIn 1) a out up)
    (hbackward : ∀ down, ¬ BackwardTaken simulateOut (max priceProbeIn 1) a out down) :
    marginalPrice simulateOut priceProbeIn a out = ⟨out.toNat, a.toNat⟩ := by
  rw [marginalPrice_not_forward hforward]
  unfold backwardPrice
  cases hdown : simulateOut (saturatingSub a (max priceProbeIn 1)) with
  | none => rfl
  | some down =>
      have hflat : ¬ down < out := fun hlt => hbackward down ⟨hforward, hdown, hlt⟩
      simp only [if_neg hflat]

theorem probe_pos (priceProbeIn : UInt64) : 0 < (max priceProbeIn 1).toNat := by
  rw [toNat_max]
  exact Nat.lt_of_lt_of_le Nat.one_pos (Nat.le_max_right _ _)

/-! ## Secants -/

/-- The slope of the secant from `a` to the probed amount `y`. -/
def secant (a out y probed : UInt64) : ℚ :=
  |(probed.toNat : ℚ) - out.toNat| / |(y.toNat : ℚ) - a.toNat|

/-- A price that comes from a second probe is the slope to the amount probed. -/
structure IsSecant (simulateOut : UInt64 → Option UInt64) (h a out : UInt64)
    (price : Price) : Prop where
  forward : ∀ up, ForwardTaken simulateOut h a out up →
    price.toRat = secant a out (saturatingAdd a h) up
  backward : ∀ down, BackwardTaken simulateOut h a out down →
    price.toRat = secant a out (saturatingSub a h) down

/-- The step that gave the price was not cut off. -/
structure FullStep (simulateOut : UInt64 → Option UInt64) (h a out : UInt64) : Prop where
  forward : ∀ up, ForwardTaken simulateOut h a out up → a.toNat + h.toNat ≤ u64Max
  backward : ∀ down, BackwardTaken simulateOut h a out down → h ≤ a

theorem div_eq_div_iff_of_pos {rise step distance : ℚ} (hrise : 0 < rise) (hstep : 0 < step)
    (hdistance : 0 < distance) : rise / step = rise / distance ↔ step = distance := by
  rw [div_eq_div_iff hstep.ne' hdistance.ne']
  constructor
  · intro heq
    exact (mul_left_cancel₀ hrise.ne' heq).symm
  · intro heq
    rw [heq]

/-- A forward price is the secant exactly when the step fits below the largest amount. -/
theorem forward_secant_iff {up : UInt64} (hh : 0 < h.toNat) (ha : simulateOut a = some out)
    (hprobe : ForwardTaken simulateOut h a out up) :
    Price.toRat ⟨(up - out).toNat, h.toNat⟩ = secant a out (saturatingAdd a h) up ↔
      a.toNat + h.toNat ≤ u64Max := by
  have hy := toNat_saturatingAdd a h
  have hmax := a.toNat_lt
  have hrise : (0 : ℚ) < up.toNat - out.toNat :=
    sub_pos.mpr (Nat.cast_lt.mpr (UInt64.lt_iff_toNat_lt.mp hprobe.2))
  have hle : a.toNat ≤ (saturatingAdd a h).toNat := by
    simp only [u64Max] at hy
    omega
  have hne : (saturatingAdd a h).toNat ≠ a.toNat := by
    intro heq
    have hsame := hprobe.1
    rw [UInt64.toNat.inj heq, ha] at hsame
    exact UInt64.lt_irrefl _ (Option.some.inj hsame ▸ hprobe.2)
  have hdistance : (0 : ℚ) < (saturatingAdd a h).toNat - a.toNat :=
    sub_pos.mpr (Nat.cast_lt.mpr (lt_of_le_of_ne hle hne.symm))
  rw [toRat_difference hprobe.2, secant, abs_of_pos hrise, abs_of_pos hdistance,
    div_eq_div_iff_of_pos hrise (Nat.cast_pos.mpr hh) hdistance, eq_sub_iff_add_eq',
    ← Nat.cast_add, Nat.cast_inj, hy]
  omega

/-- A backward price is the secant exactly when the step stays above zero. -/
theorem backward_secant_iff {down : UInt64} (hh : 0 < h.toNat) (hpos : 0 < a.toNat)
    (hprobe : BackwardTaken simulateOut h a out down) :
    Price.toRat ⟨(out - down).toNat, h.toNat⟩ = secant a out (saturatingSub a h) down ↔
      h ≤ a := by
  have hy := toNat_saturatingSub a h
  have hrise : (0 : ℚ) < out.toNat - down.toNat :=
    sub_pos.mpr (Nat.cast_lt.mpr (UInt64.lt_iff_toNat_lt.mp hprobe.2.2))
  have hdistance : (0 : ℚ) < a.toNat - (saturatingSub a h).toNat :=
    sub_pos.mpr (Nat.cast_lt.mpr (by omega))
  rw [toRat_difference hprobe.2.2, secant, abs_sub_comm, abs_of_pos hrise, abs_sub_comm,
    abs_of_pos hdistance, div_eq_div_iff_of_pos hrise (Nat.cast_pos.mpr hh) hdistance,
    eq_sub_iff_add_eq', ← Nat.cast_add, Nat.cast_inj, hy, UInt64.le_iff_toNat_le]
  omega

theorem marginalPrice_secant_iff (priceProbeIn : UInt64) (hpos : 0 < a.toNat)
    (ha : simulateOut a = some out) :
    IsSecant simulateOut (max priceProbeIn 1) a out (marginalPrice simulateOut priceProbeIn a out) ↔
      FullStep simulateOut (max priceProbeIn 1) a out := by
  have hh := probe_pos priceProbeIn
  constructor
  · intro hsecant
    refine ⟨fun up hup => ?_, fun down hdown => ?_⟩
    · have hprice := hsecant.forward up hup
      rw [marginalPrice_forward hup] at hprice
      exact (forward_secant_iff hh ha hup).mp hprice
    · have hprice := hsecant.backward down hdown
      rw [marginalPrice_backward hdown] at hprice
      exact (backward_secant_iff hh hpos hdown).mp hprice
  · intro hfull
    refine ⟨fun up hup => ?_, fun down hdown => ?_⟩
    · rw [marginalPrice_forward hup]
      exact (forward_secant_iff hh ha hup).mpr (hfull.forward up hup)
    · rw [marginalPrice_backward hdown]
      exact (backward_secant_iff hh hpos hdown).mpr (hfull.backward down hdown)

/-! ## For every quote -/

/-- The price of a filled quote is a secant slope exactly when the step that gave it was not
cut off at an end of the range. -/
theorem computeQuote_secant_iff {sdk : Sdk} {venue : QuayVenue} {request : QuoteRequest}
    {side baseDecimals quoteDecimals : UInt8}
    (hquotable : Quotable sdk venue request side baseDecimals quoteDecimals)
    (hpos : 0 < request.amount)
    (hfill : venue.simulateOut sdk side baseDecimals quoteDecimals request.amount = some out) :
    ∃ quote, venue.computeQuote sdk request = .ok quote ∧
      (IsSecant (venue.simulateOut sdk side baseDecimals quoteDecimals)
          (max (venue.priceProbeIn side) 1) request.amount out quote.price ↔
        FullStep (venue.simulateOut sdk side baseDecimals quoteDecimals)
          (max (venue.priceProbeIn side) 1) request.amount out) := by
  have hne : request.amount ≠ 0 := (UInt64.ne_of_lt hpos).symm
  refine ⟨_, hquotable.computeQuote_amount request.amount, ?_⟩
  simp only [pricedQuote, if_neg hne, hfill]
  exact marginalPrice_secant_iff _ (UInt64.lt_iff_toNat_lt.mp hpos) hfill

/-! ## A step over the end of the range -/

namespace Sample

theorem opened_quotable (simulated : UInt64 → Option UInt64) (amount : UInt64) :
    Quotable (sdkWith simulated) opened { request with amount } 0 6 9 where
  exactIn := quotable.exactIn
  side_eq := quotable.side_eq
  initialized := quotable.initialized
  base_eq := quotable.base_eq
  quote_eq := quotable.quote_eq

theorem computeQuote_secant_iff_sample :
    ∃ quote, opened.computeQuote (sdkWith rising) { request with amount := 4 } = .ok quote ∧
      (IsSecant (opened.simulateOut (sdkWith rising) 0 6 9) (max (opened.priceProbeIn 0) 1) 4 22
          quote.price ↔
        FullStep (opened.simulateOut (sdkWith rising) 0 6 9) (max (opened.priceProbeIn 0) 1) 4
          22) := by
  apply computeQuote_secant_iff (opened_quotable rising 4) (by decide)
  rw [simulateOut_sdkWith]
  rfl

/-- One atom for each atom. -/
def parity (amountIn : UInt64) : Option UInt64 := if amountIn = 0 then none else some amountIn

/-- One atom less than the largest amount. -/
def atEdge : QuoteRequest := { request with amount := 18446744073709551614 }

/-- Two atoms are stepped where only one is left: the price is half of the slope. -/
theorem secant_counterexample :
    ∃ out quote, 0 < atEdge.amount ∧
      opened.simulateOut (sdkWith parity) 0 6 9 atEdge.amount = some out ∧
      opened.computeQuote (sdkWith parity) atEdge = .ok quote ∧
      ¬ IsSecant (opened.simulateOut (sdkWith parity) 0 6 9) (max (opened.priceProbeIn 0) 1)
        atEdge.amount out quote.price := by
  have hprice : (pricedQuote parity (opened.priceProbeIn 0) atEdge).price = ⟨1, 2⟩ := by
    decide +kernel
  have hprobed : saturatingAdd atEdge.amount (max (opened.priceProbeIn 0) 1) =
      18446744073709551615 := by decide +kernel
  have hprobe : ForwardTaken parity (max (opened.priceProbeIn 0) 1) atEdge.amount
      18446744073709551614 18446744073709551615 := ⟨by decide +kernel, by decide⟩
  refine ⟨18446744073709551614, _, by decide, ?_, computeQuote_ok_iff.mpr
    ⟨0, 6, 9, opened_quotable parity 18446744073709551614, rfl⟩, ?_⟩
  · rw [simulateOut_sdkWith]
    decide
  · rw [simulateOut_sdkWith]
    intro hsecant
    have hslope := hsecant.forward _ hprobe
    rw [hprobed, hprice, Price.toRat, secant, atEdge] at hslope
    simp only [UInt64.reduceToNat] at hslope
    norm_num at hslope

end Sample

end QuayTitan.Quay
