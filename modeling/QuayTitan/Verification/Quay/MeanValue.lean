import QuayTitan.Verification.Quay.Pricing
import QuayTitan.Verification.Quay.Gate

/-! # The mean value theorem for quoted prices -/

namespace QuayTitan.Quay

open ConcaveSequence Attempts

/-! ## On the curve -/

section Curve

variable {f : ℕ → ℚ} {L U h : ℕ}

/-- A difference quotient that stops short of its step is no steeper than the chord. -/
theorem quotient_le_chord {x y : ℕ} (hxy : x < y) (hshort : y ≤ x + h) (hrise : f x ≤ f y) :
    (f y - f x) / h ≤ chord f x y := by
  have hdistance : (0 : ℚ) < y - x := sub_pos.mpr (Nat.cast_lt.mpr hxy)
  have hbound : ((y : ℚ) - x) ≤ h := by
    rw [sub_le_iff_le_add']
    exact_mod_cast hshort
  exact div_le_div_of_nonneg_left (sub_nonneg.mpr hrise) hdistance hbound

theorem chord_add (x : ℕ) : chord f x (x + h) = (f (x + h) - f x) / h := by
  rw [chord, Nat.cast_add, add_sub_cancel_left]

theorem chord_sub {x : ℕ} (hx : h ≤ x) : chord f (x - h) x = (f x - f (x - h)) / h := by
  rw [chord, Nat.cast_sub hx, sub_sub_cancel]

/-- The chord over at least one probe step is no steeper than the price at its start. -/
theorem chord_le_priceAt (hconcave : Concave f L U) (hmono : StrictMonoOn f (Set.Icc L U))
    (hU : U ≤ u64Max) (hh : 1 ≤ h) {a b : ℕ} (ha : L ≤ a) (hb : b ≤ U) (hstep : a + h ≤ b) :
    chord f a b ≤ priceAt f L U h a := by
  have hprobe : min (a + h) u64Max = a + h := Nat.min_eq_left (by omega)
  have hforward : Forward f U h a := by
    rw [Forward, hprobe]
    exact ⟨hstep.trans hb, hmono ⟨ha, by omega⟩ ⟨by omega, by omega⟩ (by omega)⟩
  rw [priceAt_forward hforward, hprobe, ← chord_add]
  exact hconcave.chord_le_chord ha (by omega) (by omega) le_rfl hstep hb

/-- The price at the end of a chord over at least one probe step is no higher than the
chord. -/
theorem priceAt_le_chord (hconcave : Concave f L U) (hmono : StrictMonoOn f (Set.Icc L U))
    (hU : U ≤ u64Max) (hh : 1 ≤ h) {a b : ℕ} (ha : L ≤ a) (hb : b ≤ U) (hstep : a + h ≤ b) :
    priceAt f L U h b ≤ chord f a b := by
  by_cases hforward : Forward f U h b
  · -- The forward probe may have been cut off at the largest amount.
    rw [priceAt_forward hforward]
    obtain ⟨hfits, hrise⟩ := hforward
    have hlt : b < min (b + h) u64Max := by
      refine lt_of_le_of_ne (by omega) fun heq => ?_
      rw [← heq] at hrise
      exact lt_irrefl _ hrise
    calc (f (min (b + h) u64Max) - f b) / h
        ≤ chord f b (min (b + h) u64Max) :=
          quotient_le_chord hlt (Nat.min_le_left _ _) hrise.le
      _ ≤ chord f a b :=
          hconcave.chord_le_chord ha (by omega) hlt (by omega) hlt.le hfits
  · have hbackward : Backward f L h b :=
      ⟨by omega, hmono ⟨by omega, by omega⟩ ⟨by omega, hb⟩ (by omega)⟩
    rw [priceAt_backward hforward hbackward, ← chord_sub (by omega)]
    exact hconcave.chord_le_chord ha (by omega) (by omega) (by omega) le_rfl hb

end Curve

/-! ## For every quote -/

/-- The chord between two quotes at least one probe step apart lies between their prices. -/
theorem computeQuote_meanValue {sdk : Sdk} {venue : QuayVenue} {request : QuoteRequest}
    {side baseDecimals quoteDecimals : UInt8} {L U : ℕ}
    (hquotable : Quotable sdk venue request side baseDecimals quoteDecimals)
    (hfills : FillsBetween (venue.simulateOut sdk side baseDecimals quoteDecimals) L U)
    (hmono : StrictMonoOn (curve (venue.simulateOut sdk side baseDecimals quoteDecimals))
      (Set.Icc L U))
    (hconcave : Concave (curve (venue.simulateOut sdk side baseDecimals quoteDecimals)) L U)
    {a b : UInt64} (ha : L ≤ a.toNat) (hb : b.toNat ≤ U)
    (hstep : a.toNat + (max (venue.priceProbeIn side) 1).toNat ≤ b.toNat) :
    ∃ quoteA quoteB, venue.computeQuote sdk { request with amount := a } = .ok quoteA ∧
      venue.computeQuote sdk { request with amount := b } = .ok quoteB ∧
      quoteB.price.toRat ≤
        chord (curve (venue.simulateOut sdk side baseDecimals quoteDecimals)) a.toNat b.toNat ∧
      chord (curve (venue.simulateOut sdk side baseDecimals quoteDecimals)) a.toNat b.toNat ≤
        quoteA.price.toRat := by
  have hh : 1 ≤ (max (venue.priceProbeIn side) 1).toNat := by
    rw [toNat_max]
    exact le_max_right _ _
  refine ⟨_, _, hquotable.computeQuote_amount a, hquotable.computeQuote_amount b, ?_, ?_⟩
  · rw [hfills.toRat_pricedQuote _ request (by omega) hb]
    exact priceAt_le_chord hconcave hmono hfills.upper_le hh ha hb hstep
  · rw [hfills.toRat_pricedQuote _ request ha (by omega)]
    exact chord_le_priceAt hconcave hmono hfills.upper_le hh ha hb hstep

/-! ## A sample curve -/

namespace Sample

theorem simulateOut_sdkWith (simulated : UInt64 → Option UInt64) (venue : QuayVenue)
    (side baseDecimals quoteDecimals : UInt8) :
    venue.simulateOut (sdkWith simulated) side baseDecimals quoteDecimals = simulated := by
  funext amt
  simp only [QuayVenue.simulateOut, sdkWith, QuayVenue.simulationInputs]
  cases simulated amt <;> rfl

/-- The sample venue once it was refreshed. -/
def opened : QuayVenue := run (QuayVenue.updateState (sdkWith rising)) caches unread

/-- A sale of base for quote. -/
def request : QuoteRequest := ⟨key 4, key 5, 0, .exactIn⟩

theorem quotable : Quotable (sdkWith rising) opened request 0 6 9 where
  exactIn := by decide
  side_eq := by decide +kernel
  initialized := by decide +kernel
  base_eq := by decide +kernel
  quote_eq := by decide +kernel

theorem fillsBetween_rising : FillsBetween rising 1 6 where
  lower_pos := le_rfl
  upper_le := by decide
  isSome_iff x := by
    unfold rising
    split
    · rename_i hzero
      simp [hzero]
    · rename_i hpos
      have hne : x.toNat ≠ 0 := fun h => hpos (UInt64.toNat_inj.mp h)
      rw [Option.isSome_iff_ne_none, ne_eq, List.getElem?_eq_none_iff,
        show outputs.length = 6 from rfl]
      omega
  positive x out hout := by
    unfold rising at hout
    split at hout
    · cases hout
    · have hall : ∀ y ∈ outputs, 0 < y := by simp [outputs]
      exact hall out (List.mem_of_getElem? hout)

theorem rising_strictMono : StrictMonoOn (curve rising) (Set.Icc 1 6) := by
  have htable : ∀ x < 7, ∀ y < 7, 1 ≤ x → x < y → outputAt rising x < outputAt rising y := by
    decide +kernel
  intro x hx y hy hxy
  exact Nat.cast_lt.mpr
    (htable x (Nat.lt_succ_of_le hx.2) y (Nat.lt_succ_of_le hy.2) hx.1 hxy)

theorem rising_concave : Concave (curve rising) 1 6 := by
  have htable : ∀ x < 5, 1 ≤ x →
      outputAt rising (x + 2) + outputAt rising x ≤ 2 * outputAt rising (x + 1) := by
    decide +kernel
  intro x hx hx'
  have hle : (outputAt rising (x + 2) : ℚ) + outputAt rising x ≤ 2 * outputAt rising (x + 1) := by
    exact_mod_cast htable x (by omega) hx
  simp only [curve]
  linarith

theorem computeQuote_meanValue_sample :
    ∃ quoteA quoteB,
      opened.computeQuote (sdkWith rising) { request with amount := 1 } = .ok quoteA ∧
      opened.computeQuote (sdkWith rising) { request with amount := 5 } = .ok quoteB ∧
      quoteB.price.toRat ≤ chord (curve (opened.simulateOut (sdkWith rising) 0 6 9)) 1 5 ∧
      chord (curve (opened.simulateOut (sdkWith rising) 0 6 9)) 1 5 ≤ quoteA.price.toRat := by
  apply @computeQuote_meanValue _ _ _ _ _ _ 1 6 quotable _ _ _ 1 5 (by decide) (by decide)
    (by decide +kernel)
  · rw [simulateOut_sdkWith]
    exact fillsBetween_rising
  · rw [simulateOut_sdkWith]
    exact rising_strictMono
  · rw [simulateOut_sdkWith]
    exact rising_concave

end Sample

end QuayTitan.Quay
