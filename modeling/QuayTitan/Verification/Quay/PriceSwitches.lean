import QuayTitan.Verification.Quay.MeanValue

/-! # When quoted prices never increase

Within one branch of the pricing code the price never increases on a concave curve. What
decides is the amount at which one branch takes over from another. -/

namespace QuayTitan.Quay

open ConcaveSequence

/-! ## The switches -/

/-- The conditions at the amounts where the branch changes. -/
structure BranchesMeet (f : ℕ → ℚ) (L U h : ℕ) : Prop where
  forward_backward : ∀ x, L + h ≤ x + 1 → x + 1 ≤ U → Forward f U h x → ¬ Forward f U h (x + 1) →
    h = 1 ∨ x + h ≤ U ∧ ∀ y, x + 1 ≤ y + h → y + 1 ≤ x + h → f (y + 1) - f y = f (x + 1) - f x
  forward_average : ∀ x, L ≤ x → x + 1 < L + h → x + 1 ≤ U → Forward f U h x →
    ¬ Forward f U h (x + 1) →
    h * f (x + 1) ≤ ((x + 1 : ℕ) : ℚ) * (f (min (x + h) u64Max) - f x)
  average_average : ∀ x, L ≤ x → x + 1 < L + h → x + 1 ≤ U → ¬ Forward f U h x →
    (x = L ∨ Forward f U h (x - 1)) → x * (f (x + 1) - f x) ≤ f x
  average_backward : L + h ≤ U → ¬ Forward f U h (L + h - 1) →
    ((L + h - 1 : ℕ) : ℚ) * (f (L + h) - f L) ≤ h * f (L + h - 1)
  backward_average : ∀ x, L ≤ x → f x < f (x + 1) → f (x + 1) = f U → x + 1 + h ≤ U →
    h * f (x + 1) ≤ ((x + 1 + h : ℕ) : ℚ) * (f (x + 1) - f x)

/-- A curve the pricing code is meant for, with its probe step. -/
structure PricedCurve (f : ℕ → ℚ) (L U h : ℕ) : Prop where
  concave : Concave f L U
  monotone : MonotoneOn f (Set.Icc L U)
  nonneg : ∀ x, 0 ≤ f x
  lower_pos : 1 ≤ L
  upper_le : U ≤ u64Max
  step_pos : 1 ≤ h

section Curve

variable {f : ℕ → ℚ} {L U h : ℕ}

namespace PricedCurve

theorem le (c : PricedCurve f L U h) {x y : ℕ} (hx : L ≤ x) (hxy : x ≤ y) (hy : y ≤ U) :
    f x ≤ f y :=
  c.monotone ⟨hx, hxy.trans hy⟩ ⟨hx.trans hxy, hy⟩ hxy

theorem h_pos (c : PricedCurve f L U h) : (0 : ℚ) < h := Nat.cast_pos.mpr c.step_pos

/-- A curve that does not rise between two amounts is level from the first one on. -/
theorem level_of_le (c : PricedCurve f L U h) {z w y : ℕ} (hz : L ≤ z) (hzw : z < w)
    (hw : w ≤ U) (hstill : f w ≤ f z) (hy : z ≤ y) (hyU : y ≤ U) : f y = f z :=
  c.concave.eq_of_level c.monotone hz ((c.le (Nat.le_succ_of_le hz) hzw hw).trans hstill) hy hyU

/-! ## Which branch is taken -/

/-- Where the forward probe gains, so does a single atom. -/
theorem lt_succ_of_forward (c : PricedCurve f L U h) {x : ℕ} (hx : L ≤ x) (hxU : x ≤ U)
    (hforward : Forward f U h x) : f x < f (x + 1) := by
  by_contra hlevel
  have hU := c.upper_le
  exact hforward.2.ne (c.concave.eq_of_level c.monotone hx (not_lt.mp hlevel) (by omega)
    hforward.1).symm

/-- The forward branch is taken on an initial part of the range. -/
theorem forward_of_succ (c : PricedCurve f L U h) {x : ℕ} (hx : L ≤ x) (hxU : x + 1 ≤ U)
    (hforward : Forward f U h (x + 1)) : Forward f U h x := by
  have hU := c.upper_le
  have hh := c.step_pos
  have hgain := c.lt_succ_of_forward (Nat.le_succ_of_le hx) hxU hforward
  have hprobe : x + 1 < min (x + 1 + h) u64Max := by
    refine lt_of_le_of_ne (by omega) fun heq => ?_
    have hrise := hforward.2
    rw [← heq] at hrise
    exact lt_irrefl _ hrise
  have hfits := hforward.1
  have hstep := c.concave x hx (by omega)
  have hle : f (x + 1) ≤ f (min (x + h) u64Max) := c.le (by omega) (by omega) (by omega)
  exact ⟨by omega, by linarith⟩

theorem backward_of_forward (c : PricedCurve f L U h) {x : ℕ} (hx : L ≤ x)
    (hxU : x + 1 ≤ U) (hforward : Forward f U h x) (hfits : L + h ≤ x + 1) :
    Backward f L h (x + 1) := by
  have hh := c.step_pos
  have hle : f (x + 1 - h) ≤ f x := c.le (by omega) (by omega) (by omega)
  exact ⟨hfits, hle.trans_lt (c.lt_succ_of_forward hx (by omega) hforward)⟩

theorem le_of_not_backward {x : ℕ} (hfits : L + h ≤ x + 1)
    (hbackward : ¬ Backward f L h (x + 1)) : f (x + 1) ≤ f (x + 1 - h) :=
  not_lt.mp fun hlt => hbackward ⟨hfits, hlt⟩

/-! ## Prices next to each other -/

theorem forward_forward (c : PricedCurve f L U h) {x : ℕ} (hx : L ≤ x) (hxU : x + 1 ≤ U)
    (hforward : Forward f U h (x + 1)) : priceAt f L U h (x + 1) ≤ priceAt f L U h x := by
  have hU := c.upper_le
  have hh := c.step_pos
  rw [priceAt_forward hforward, priceAt_forward (c.forward_of_succ hx hxU hforward)]
  apply div_le_div_of_nonneg_right _ c.h_pos.le
  have hfits := hforward.1
  by_cases hcut : min (x + 1 + h) u64Max = min (x + h) u64Max
  · rw [hcut]
    exact sub_le_sub_left (c.le hx (Nat.le_succ x) hxU) _
  · have hnext : min (x + 1 + h) u64Max = min (x + h) u64Max + 1 := by omega
    rw [hnext] at hfits ⊢
    have hstep := c.concave.step_le (y := min (x + h) u64Max) hx (by omega) hfits
    linarith

theorem backward_backward (c : PricedCurve f L U h) {x : ℕ} (hxU : x + 1 ≤ U)
    (hforward : ¬ Forward f U h x) (hforward' : ¬ Forward f U h (x + 1))
    (hbackward : Backward f L h x) (hbackward' : Backward f L h (x + 1)) :
    priceAt f L U h (x + 1) ≤ priceAt f L U h x := by
  rw [priceAt_backward hforward hbackward, priceAt_backward hforward' hbackward']
  apply div_le_div_of_nonneg_right _ c.h_pos.le
  have hfits := hbackward.1
  have hstep := c.concave.step_le (x := x - h) (y := x) (by omega) (by omega) hxU
  rw [show x - h + 1 = x + 1 - h by omega] at hstep
  linarith

/-- The forward difference at `x` and the backward difference at `x + 1` overlap in one
step; they agree only when that step is the whole probe or all of their steps are equal. -/
theorem forward_backward_iff (c : PricedCurve f L U h) {x : ℕ} (hfits : L + h ≤ x + 1)
    (hxU : x + 1 ≤ U) (hforward : Forward f U h x) (hforward' : ¬ Forward f U h (x + 1)) :
    priceAt f L U h (x + 1) ≤ priceAt f L U h x ↔
      h = 1 ∨ x + h ≤ U ∧
        ∀ y, x + 1 ≤ y + h → y + 1 ≤ x + h → f (y + 1) - f y = f (x + 1) - f x := by
  have hU := c.upper_le
  have hh := c.step_pos
  have hx : L ≤ x := by omega
  have hgain := c.lt_succ_of_forward hx (by omega) hforward
  rw [priceAt_forward hforward,
    priceAt_backward hforward' (c.backward_of_forward hx hxU hforward hfits),
    div_le_div_iff_of_pos_right c.h_pos]
  obtain ⟨m, rfl⟩ := Nat.exists_eq_add_of_le' hh
  obtain ⟨z, rfl⟩ : ∃ z, x = z + m := ⟨x - m, by omega⟩
  rw [show z + m + 1 - (m + 1) = z by omega]
  constructor
  · intro hle
    by_cases hm : m = 0
    · exact .inl (by omega)
    refine .inr ?_
    have hfull : z + m + (m + 1) ≤ U := by
      by_contra hcut
      -- The forward probe was cut off at the largest amount, where the curve is level.
      have hprobe : min (z + m + (m + 1)) u64Max = U := by
        have := hforward.1
        omega
      have htop : f U ≤ f (z + m + 1) := by
        by_contra hrise
        apply hforward'
        rw [Forward, show min (z + m + 1 + (m + 1)) u64Max = U by omega]
        exact ⟨le_rfl, not_le.mp hrise⟩
      rw [hprobe] at hle
      have hstill : f (z + m) ≤ f z := by linarith
      have hnext : f (z + m + 1) = f z :=
        c.level_of_le (by omega) (by omega) (by omega) hstill (by omega) hxU
      have hhere : f z ≤ f (z + m) := c.le (by omega) (by omega) (by omega)
      linarith
    refine ⟨hfull, fun y hy hy' => ?_⟩
    rw [Nat.min_eq_left (by omega)] at hle
    obtain ⟨hfirst, hlast⟩ :=
      c.concave.steps_eq_of_rise_le (a := z) (c := z + m) (n := m) (by omega) (by omega) hfull hle
    have hupper := c.concave.step_le (x := z) (y := y) (by omega) (by omega) (by omega)
    have hlower := c.concave.step_le (x := y) (y := z + m + m) (by omega) (by omega) hfull
    linarith
  · rintro (hm | ⟨hfull, hsteps⟩)
    · obtain rfl : m = 0 := by omega
      rw [Nat.min_eq_left (by omega)]
      exact le_rfl
    · rw [Nat.min_eq_left (by omega)]
      have hback := Concave.rise_of_steps_eq (f := f) (a := z) (n := m + 1)
        fun i hi => hsteps (z + i) (by omega) (by omega)
      have hahead := Concave.rise_of_steps_eq (f := f) (a := z + m) (n := m + 1)
        fun i hi => hsteps (z + m + i) (by omega) (by omega)
      rw [← Nat.add_assoc] at hback
      linarith

theorem forward_average_iff (c : PricedCurve f L U h) {x : ℕ} (hlow : x + 1 < L + h)
    (hforward : Forward f U h x) (hforward' : ¬ Forward f U h (x + 1)) :
    priceAt f L U h (x + 1) ≤ priceAt f L U h x ↔
      h * f (x + 1) ≤ ((x + 1 : ℕ) : ℚ) * (f (min (x + h) u64Max) - f x) := by
  rw [priceAt_forward hforward,
    priceAt_average hforward' fun hbackward => absurd hbackward.1 (by omega),
    div_le_div_iff₀ (Nat.cast_pos.mpr (Nat.succ_pos x)) c.h_pos, mul_comm (f (x + 1)),
    mul_comm (_ - _)]

theorem average_average_iff {x : ℕ} (hx : 0 < x)
    (hforward : ¬ Forward f U h x) (hforward' : ¬ Forward f U h (x + 1))
    (hbackward : ¬ Backward f L h x) (hbackward' : ¬ Backward f L h (x + 1)) :
    priceAt f L U h (x + 1) ≤ priceAt f L U h x ↔ x * (f (x + 1) - f x) ≤ f x := by
  rw [priceAt_average hforward hbackward, priceAt_average hforward' hbackward',
    div_le_div_iff₀ (Nat.cast_pos.mpr (Nat.succ_pos x)) (Nat.cast_pos.mpr hx)]
  push_cast
  constructor <;> intro hle <;> linarith

theorem average_backward_iff (c : PricedCurve f L U h)
    (hforward : ¬ Forward f U h (L + h - 1)) (hforward' : ¬ Forward f U h (L + h))
    (hbackward : Backward f L h (L + h)) :
    priceAt f L U h (L + h) ≤ priceAt f L U h (L + h - 1) ↔
      ((L + h - 1 : ℕ) : ℚ) * (f (L + h) - f L) ≤ h * f (L + h - 1) := by
  have hL := c.lower_pos
  have hh := c.step_pos
  have hlow : (0 : ℚ) < (L + h - 1 : ℕ) := Nat.cast_pos.mpr (by omega)
  rw [priceAt_backward hforward' hbackward,
    priceAt_average hforward fun hback => absurd hback.1 (by omega),
    div_le_div_iff₀ c.h_pos hlow, Nat.add_sub_cancel, mul_comm (_ - _), mul_comm (f (L + h - 1))]

/-- On the plateau the backward difference gives way to the average rate one probe step
after the last rise, from `x` to `x + 1`. -/
theorem backward_average_iff (c : PricedCurve f L U h) {x : ℕ} (hx : L ≤ x)
    (hrise : f x < f (x + 1)) (htop : f (x + 1) = f U) (hxU : x + 1 + h ≤ U) :
    priceAt f L U h (x + 1 + h) ≤ priceAt f L U h (x + h) ↔
      h * f (x + 1) ≤ ((x + 1 + h : ℕ) : ℚ) * (f (x + 1) - f x) := by
  have hU := c.upper_le
  have hh := c.step_pos
  have hlevel (y : ℕ) (hy : x + 1 ≤ y) (hyU : y ≤ U) : f y = f (x + 1) :=
    le_antisymm (htop ▸ c.le (by omega) hyU le_rfl) (c.le (by omega) hy hyU)
  have hnot (y : ℕ) (hy : x + 1 ≤ y) (hyU : y ≤ U) : ¬ Forward f U h y := by
    rintro ⟨hfits, hgain⟩
    rw [hlevel y hy hyU, hlevel _ (by omega) hfits] at hgain
    exact lt_irrefl _ hgain
  have hback : Backward f L h (x + h) := by
    refine ⟨by omega, ?_⟩
    rw [Nat.add_sub_cancel, hlevel (x + h) (by omega) (by omega)]
    exact hrise
  have hnone : ¬ Backward f L h (x + 1 + h) := by
    rintro ⟨_, hlose⟩
    rw [Nat.add_sub_cancel, hlevel (x + 1 + h) (by omega) hxU] at hlose
    exact lt_irrefl _ hlose
  rw [priceAt_backward (hnot (x + h) (by omega) (by omega)) hback,
    priceAt_average (hnot (x + 1 + h) (by omega) hxU) hnone,
    div_le_div_iff₀ (Nat.cast_pos.mpr (by omega)) c.h_pos, Nat.add_sub_cancel,
    hlevel (x + 1 + h) (by omega) hxU, hlevel (x + h) (by omega) (by omega), mul_comm (f (x + 1)),
    mul_comm (_ - _)]

/-! ## The whole curve -/

/-- The condition on the first average rate covers all of them. -/
theorem step_le_average (c : PricedCurve f L U h) (hmeet : BranchesMeet f L U h) {x : ℕ}
    (hx : L ≤ x) (hlow : x + 1 < L + h) (hxU : x + 1 ≤ U) (hforward : ¬ Forward f U h x) :
    x * (f (x + 1) - f x) ≤ f x := by
  induction x, hx using Nat.le_induction with
  | base => exact hmeet.average_average L le_rfl hlow hxU hforward (.inl rfl)
  | succ x hx ih =>
      by_cases hbefore : Forward f U h x
      · exact hmeet.average_average (x + 1) (by omega) hlow hxU hforward (.inr hbefore)
      · exact c.concave.step_le_average hx hxU (ih (by omega) (by omega) hbefore)

/-- Where the branches meet, the price never increases from one atom to the next. -/
theorem priceAt_succ_le (c : PricedCurve f L U h) (hmeet : BranchesMeet f L U h) {x : ℕ}
    (hx : L ≤ x) (hxU : x + 1 ≤ U) : priceAt f L U h (x + 1) ≤ priceAt f L U h x := by
  have hL := c.lower_pos
  have hh := c.step_pos
  by_cases hforward' : Forward f U h (x + 1)
  · exact c.forward_forward hx hxU hforward'
  by_cases hforward : Forward f U h x
  · by_cases hlow : x + 1 < L + h
    · exact (c.forward_average_iff hlow hforward hforward').mpr
        (hmeet.forward_average x hx hlow hxU hforward hforward')
    · exact (c.forward_backward_iff (by omega) hxU hforward hforward').mpr
        (hmeet.forward_backward x (by omega) hxU hforward hforward')
  by_cases hbackward' : Backward f L h (x + 1)
  · by_cases hbackward : Backward f L h x
    · exact c.backward_backward hxU hforward hforward' hbackward hbackward'
    · obtain rfl : x = L + h - 1 := by
        by_contra hne
        obtain ⟨hfits, hlose⟩ := hbackward'
        have hlate : L + h ≤ x := by omega
        have hstill : f x ≤ f (x - h) := not_lt.mp fun hlt => hbackward ⟨hlate, hlt⟩
        have hflat {y : ℕ} (hy : x - h ≤ y) (hyU : y ≤ U) : f y = f (x - h) :=
          c.level_of_le (by omega) (show x - h < x by omega) (by omega) hstill hy hyU
        rw [hflat (by omega) (by omega), hflat (by omega) hxU] at hlose
        exact lt_irrefl _ hlose
      rw [show L + h - 1 + 1 = L + h by omega] at hforward' hbackward' hxU ⊢
      exact (c.average_backward_iff hforward hforward' hbackward').mpr
        (hmeet.average_backward hxU hforward)
  · by_cases hbackward : Backward f L h x
    · obtain ⟨z, rfl⟩ : ∃ z, x = z + h := ⟨x - h, by have := hbackward.1; omega⟩
      have hfits := hbackward.1
      have hstill := le_of_not_backward (by omega) hbackward'
      have hlose := hbackward.2
      rw [show z + h + 1 - h = z + 1 by omega] at hstill
      rw [Nat.add_sub_cancel] at hlose
      have hflat {y : ℕ} (hy : z + 1 ≤ y) (hyU : y ≤ U) : f y = f (z + 1) :=
        c.level_of_le (by omega) (show z + 1 < z + h + 1 by omega) hxU hstill hy hyU
      have hrise : f z < f (z + 1) := hlose.trans_eq (hflat (by omega) (by omega))
      have hU : f (z + 1) = f U := (hflat (by omega) le_rfl).symm
      rw [show z + h + 1 = z + 1 + h by omega] at hxU ⊢
      exact (c.backward_average_iff (by omega) hrise hU hxU).mpr
        (hmeet.backward_average z (by omega) hrise hU hxU)
    · rw [average_average_iff (by omega) hforward hforward' hbackward hbackward']
      by_cases hlow : x + 1 < L + h
      · exact c.step_le_average hmeet hx hlow hxU hforward
      · have hstill := (le_of_not_backward (by omega) hbackward').trans
          (c.le (y := x) (by omega) (by omega) (by omega))
        exact (mul_nonpos_of_nonneg_of_nonpos (Nat.cast_nonneg x) (sub_nonpos.mpr hstill)).trans
          (c.nonneg x)

/-- On a concave curve the price never increases exactly when the branches meet. -/
theorem priceAt_antitone_iff (c : PricedCurve f L U h) :
    (∀ a b, L ≤ a → a < b → b ≤ U → priceAt f L U h b ≤ priceAt f L U h a) ↔
      BranchesMeet f L U h := by
  have hL := c.lower_pos
  have hh := c.step_pos
  constructor
  · intro hanti
    have hsucc (x : ℕ) (hx : L ≤ x) (hxU : x + 1 ≤ U) := hanti x (x + 1) hx (Nat.lt_succ_self x) hxU
    constructor
    · intro x hfits hxU hforward hforward'
      exact (c.forward_backward_iff hfits hxU hforward hforward').mp (hsucc x (by omega) hxU)
    · intro x hx hlow hxU hforward hforward'
      exact (c.forward_average_iff hlow hforward hforward').mp (hsucc x hx hxU)
    · intro x hx hlow hxU hforward _
      exact (average_average_iff (by omega) hforward
        (mt (c.forward_of_succ hx hxU) hforward) (fun hback => absurd hback.1 (by omega))
        (fun hback => absurd hback.1 (by omega))).mp (hsucc x hx hxU)
    · intro hfits hforward
      by_cases hbackward : Backward f L h (L + h)
      · have hnext : L + h - 1 + 1 = L + h := by omega
        have hforward' : ¬ Forward f U h (L + h) := by
          rw [← hnext]
          exact mt (c.forward_of_succ (by omega) (by omega)) hforward
        have hle := hsucc (L + h - 1) (by omega) (by omega)
        rw [hnext] at hle
        exact (c.average_backward_iff hforward hforward' hbackward).mp hle
      · have hstill : f (L + h) ≤ f L := not_lt.mp fun hlt =>
          hbackward ⟨le_rfl, by rwa [Nat.add_sub_cancel]⟩
        exact (mul_nonpos_of_nonneg_of_nonpos (Nat.cast_nonneg _) (sub_nonpos.mpr hstill)).trans
          (mul_nonneg c.h_pos.le (c.nonneg _))
    · intro x hx hrise htop hxU
      have hle := hsucc (x + h) (by omega) (by omega)
      rw [show x + h + 1 = x + 1 + h by omega] at hle
      exact (c.backward_average_iff hx hrise htop hxU).mp hle
  · intro hmeet a b ha hab hb
    induction b, hab using Nat.le_induction with
    | base => exact c.priceAt_succ_le hmeet ha hb
    | succ b hab ih =>
        exact (c.priceAt_succ_le hmeet (by omega) hb).trans (ih (by omega))

end PricedCurve

end Curve

/-! ## For every quote -/

section Quotes

variable {sdk : Sdk} {venue : QuayVenue} {request : QuoteRequest}
  {side baseDecimals quoteDecimals : UInt8} {L U : ℕ}

theorem FillsBetween.pricedCurve {simulateOut : UInt64 → Option UInt64}
    (hfills : FillsBetween simulateOut L U) (hmono : MonotoneOn (curve simulateOut) (Set.Icc L U))
    (hconcave : Concave (curve simulateOut) L U) (priceProbeIn : UInt64) :
    PricedCurve (curve simulateOut) L U (max priceProbeIn 1).toNat where
  concave := hconcave
  monotone := hmono
  nonneg _ := Nat.cast_nonneg _
  lower_pos := hfills.lower_pos
  upper_le := hfills.upper_le
  step_pos := by
    rw [toNat_max]
    exact le_max_right _ _

/-- Quoted prices never increase with the amount exactly when the branches meet. -/
theorem computeQuote_priceAntitone_iff
    (hquotable : Quotable sdk venue request side baseDecimals quoteDecimals)
    (hfills : FillsBetween (venue.simulateOut sdk side baseDecimals quoteDecimals) L U)
    (hmono : MonotoneOn (curve (venue.simulateOut sdk side baseDecimals quoteDecimals))
      (Set.Icc L U))
    (hconcave : Concave (curve (venue.simulateOut sdk side baseDecimals quoteDecimals)) L U) :
    (∀ a b : UInt64, L ≤ a.toNat → a < b → b.toNat ≤ U → ∀ quoteA quoteB,
      venue.computeQuote sdk { request with amount := a } = .ok quoteA →
      venue.computeQuote sdk { request with amount := b } = .ok quoteB →
      quoteB.price.toRat ≤ quoteA.price.toRat) ↔
    BranchesMeet (curve (venue.simulateOut sdk side baseDecimals quoteDecimals)) L U
      (max (venue.priceProbeIn side) 1).toNat := by
  rw [← (hfills.pricedCurve hmono hconcave (venue.priceProbeIn side)).priceAt_antitone_iff]
  have hprice {a : UInt64} (ha : L ≤ a.toNat) (hU : a.toNat ≤ U) {quote : QuoteResult}
      (hquote : venue.computeQuote sdk { request with amount := a } = .ok quote) :
      quote.price.toRat =
        priceAt (curve (venue.simulateOut sdk side baseDecimals quoteDecimals)) L U
          (max (venue.priceProbeIn side) 1).toNat a.toNat := by
    rw [hquotable.computeQuote_amount a] at hquote
    obtain rfl := Except.ok.inj hquote
    exact hfills.toRat_pricedQuote _ request ha hU
  constructor
  · intro hanti a b ha hab hb
    have hfits : U < UInt64.size := hfills.upper_le.trans_lt (by decide)
    have hamount {n : ℕ} (hn : n ≤ U) : (UInt64.ofNat n).toNat = n :=
      UInt64.toNat_ofNat_of_lt (by omega)
    have hle := hanti (UInt64.ofNat a) (UInt64.ofNat b) (by rwa [hamount (by omega)])
      (UInt64.lt_iff_toNat_lt.mpr (by rwa [hamount (by omega), hamount hb]))
      (by rwa [hamount hb]) _ _ (hquotable.computeQuote_amount _) (hquotable.computeQuote_amount _)
    rwa [hfills.toRat_pricedQuote _ request (by rw [hamount hb]; omega) (by rwa [hamount hb]),
      hfills.toRat_pricedQuote _ request (by rwa [hamount (by omega)])
        (by rw [hamount (by omega)]; omega), hamount hb, hamount (by omega)] at hle
  · intro hanti a b ha hab hb quoteA quoteB hquoteA hquoteB
    rw [UInt64.lt_iff_toNat_lt] at hab
    rw [hprice ha (by omega) hquoteA, hprice (by omega) hb hquoteB]
    exact hanti a.toNat b.toNat ha hab hb

end Quotes

namespace Sample

theorem computeQuote_priceAntitone_iff_sample :
    (∀ a b : UInt64, 1 ≤ a.toNat → a < b → b.toNat ≤ 6 → ∀ quoteA quoteB,
      opened.computeQuote (sdkWith rising) { request with amount := a } = .ok quoteA →
      opened.computeQuote (sdkWith rising) { request with amount := b } = .ok quoteB →
      quoteB.price.toRat ≤ quoteA.price.toRat) ↔
    BranchesMeet (curve (opened.simulateOut (sdkWith rising) 0 6 9)) 1 6
      (max (opened.priceProbeIn 0) 1).toNat := by
  apply computeQuote_priceAntitone_iff quotable
  · rw [simulateOut_sdkWith]
    exact fillsBetween_rising
  · rw [simulateOut_sdkWith]
    exact rising_strictMono.monotoneOn
  · rw [simulateOut_sdkWith]
    exact rising_concave

/-- Four atoms are priced forward, five backward: the price rises from 3/2 to 5/2. -/
theorem risingPrice_counterexample :
    FillsBetween (opened.simulateOut (sdkWith rising) 0 6 9) 1 6 ∧
    StrictMonoOn (curve (opened.simulateOut (sdkWith rising) 0 6 9)) (Set.Icc 1 6) ∧
    Concave (curve (opened.simulateOut (sdkWith rising) 0 6 9)) 1 6 ∧
    ∃ quoteA quoteB,
      opened.computeQuote (sdkWith rising) { request with amount := 4 } = .ok quoteA ∧
      opened.computeQuote (sdkWith rising) { request with amount := 5 } = .ok quoteB ∧
      quoteA.price.toRat < quoteB.price.toRat := by
  rw [simulateOut_sdkWith]
  refine ⟨fillsBetween_rising, rising_strictMono, rising_concave, _, _,
    quotable.computeQuote_amount 4, quotable.computeQuote_amount 5, ?_⟩
  have hfour : (pricedQuote (opened.simulateOut (sdkWith rising) 0 6 9) (opened.priceProbeIn 0)
      { request with amount := 4 }).price = ⟨3, 2⟩ := by decide +kernel
  have hfive : (pricedQuote (opened.simulateOut (sdkWith rising) 0 6 9) (opened.priceProbeIn 0)
      { request with amount := 5 }).price = ⟨5, 2⟩ := by decide +kernel
  rw [hfour, hfive, Price.toRat, Price.toRat]
  norm_num

end Sample

end QuayTitan.Quay
