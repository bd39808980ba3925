import Mathlib.Algebra.Order.Field.Basic
import Mathlib.Order.Interval.Set.Defs
import Mathlib.Tactic.Linarith
import Mathlib.Tactic.LinearCombination
import Mathlib.Tactic.Ring

/-! # Concave sequences

Steps, rises and chords of a sequence that is concave on an interval of indices. -/

namespace ConcaveSequence

variable {K : Type*} [Field K] [LinearOrder K] [IsStrictOrderedRing K] {f : ℕ → K} {L U : ℕ}

/-- The steps of the sequence never increase between `L` and `U`. -/
def Concave (f : ℕ → K) (L U : ℕ) : Prop :=
  ∀ x, L ≤ x → x + 2 ≤ U → f (x + 2) - f (x + 1) ≤ f (x + 1) - f x

/-- The slope of the line through two points of the sequence. -/
def chord (f : ℕ → K) (a b : ℕ) : K := (f b - f a) / (b - a)

namespace Concave

/-! ## Steps -/

omit [IsStrictOrderedRing K] in
theorem step_le (h : Concave f L U) {x y : ℕ} (hx : L ≤ x) (hxy : x ≤ y) (hy : y + 1 ≤ U) :
    f (y + 1) - f y ≤ f (x + 1) - f x := by
  induction y, hxy using Nat.le_induction with
  | base => exact le_rfl
  | succ y hxy ih => exact (h y (hx.trans hxy) hy).trans (ih (by omega))

/-- Rises over the same distance shrink along the sequence. -/
theorem rise_le_rise (h : Concave f L U) {a c : ℕ} (n : ℕ) (ha : L ≤ a) (hac : a ≤ c)
    (hc : c + n ≤ U) : f (c + n) - f c ≤ f (a + n) - f a := by
  induction n with
  | zero => simp
  | succ n ih =>
      have hstep := h.step_le (x := a + n) (y := c + n) (by omega) (by omega) hc
      have hrise := ih (by omega)
      simp only [← Nat.add_assoc]
      linarith

/-- Several steps rise at most as often their first one. -/
theorem rise_le (h : Concave f L U) {x : ℕ} (n : ℕ) (hx : L ≤ x) (hn : x + n ≤ U) :
    f (x + n) - f x ≤ n * (f (x + 1) - f x) := by
  induction n with
  | zero => simp
  | succ n ih =>
      have hstep := h.step_le (y := x + n) hx (by omega) hn
      have hrise := ih (by omega)
      push_cast
      simp only [← Nat.add_assoc]
      linarith

/-- Several steps rise at least as often the step that follows them. -/
theorem le_rise (h : Concave f L U) {x : ℕ} (n : ℕ) (hx : L ≤ x) (hn : x + n + 1 ≤ U) :
    n * (f (x + n + 1) - f (x + n)) ≤ f (x + n) - f x := by
  induction n with
  | zero => simp
  | succ n ih =>
      have hstep := h (x + n) (by omega) hn
      have hrise := ih (by omega)
      have hscaled : (n : K) * (f (x + n + 2) - f (x + n + 1)) ≤
          n * (f (x + n + 1) - f (x + n)) := mul_le_mul_of_nonneg_left hstep (Nat.cast_nonneg n)
      push_cast
      simp only [← Nat.add_assoc]
      linarith

/-- Two overlapping rises are equal only when their end steps are. -/
theorem steps_eq_of_rise_le (h : Concave f L U) {a c n : ℕ} (ha : L ≤ a) (hac : a ≤ c)
    (hc : c + n + 1 ≤ U) (hle : f (a + n + 1) - f a ≤ f (c + n + 1) - f c) :
    f (a + 1) - f a = f (c + 1) - f c ∧
      f (a + n + 1) - f (a + n) = f (c + n + 1) - f (c + n) := by
  constructor
  · have hrest := h.rise_le_rise (a := a + 1) (c := c + 1) n (by omega) (by omega) (by omega)
    rw [Nat.add_right_comm a, Nat.add_right_comm c] at hrest
    exact le_antisymm (by linarith) (h.step_le ha hac (by omega))
  · have hrest := h.rise_le_rise n ha hac (by omega)
    exact le_antisymm (by linarith) (h.step_le (by omega) (by omega) hc)

omit [LinearOrder K] [IsStrictOrderedRing K] in
theorem rise_of_steps_eq {step : K} {a n : ℕ}
    (hsteps : ∀ i < n, f (a + i + 1) - f (a + i) = step) : f (a + n) - f a = n * step := by
  induction n with
  | zero => simp
  | succ n ih =>
      have hlast := hsteps n (Nat.lt_succ_self n)
      have hrest := ih fun i hi => hsteps i (by omega)
      push_cast
      rw [← Nat.add_assoc]
      linear_combination hlast + hrest

/-- A sequence that never falls stays level after its first level step. -/
theorem eq_of_level (h : Concave f L U) (hmono : MonotoneOn f (Set.Icc L U)) {x y : ℕ}
    (hx : L ≤ x) (hlevel : f (x + 1) ≤ f x) (hxy : x ≤ y) (hy : y ≤ U) : f y = f x := by
  obtain ⟨n, rfl⟩ := Nat.exists_eq_add_of_le hxy
  have hrise := h.rise_le n hx hy
  have hnonpos : (n : K) * (f (x + 1) - f x) ≤ 0 :=
    mul_nonpos_of_nonneg_of_nonpos (Nat.cast_nonneg n) (sub_nonpos.mpr hlevel)
  exact le_antisymm (by linarith) (hmono ⟨hx, by omega⟩ ⟨by omega, hy⟩ hxy)

/-- Once a step is no larger than the average so far, so is every later one. -/
theorem step_le_average (h : Concave f L U) {x : ℕ} (hx : L ≤ x) (hU : x + 2 ≤ U)
    (hle : x * (f (x + 1) - f x) ≤ f x) :
    ((x + 1 : ℕ) : K) * (f (x + 2) - f (x + 1)) ≤ f (x + 1) := by
  have hscaled : ((x + 1 : ℕ) : K) * (f (x + 2) - f (x + 1)) ≤
      (x + 1 : ℕ) * (f (x + 1) - f x) :=
    mul_le_mul_of_nonneg_left (h x hx hU) (Nat.cast_nonneg _)
  push_cast at hscaled ⊢
  linarith

/-! ## Chords -/

theorem three_point (h : Concave f L U) {x y z : ℕ} (hx : L ≤ x) (hxy : x ≤ y) (hyz : y ≤ z)
    (hz : z ≤ U) : (f z - f y) * (y - x) ≤ (f y - f x) * (z - y) := by
  obtain ⟨m, rfl⟩ := Nat.exists_eq_add_of_le hxy
  obtain ⟨n, rfl⟩ := Nat.exists_eq_add_of_le hyz
  cases n with
  | zero => simp
  | succ n =>
      have hafter := h.rise_le (n + 1) (hx.trans hxy) hz
      have hbefore := h.le_rise m hx (by omega)
      have hleft := mul_le_mul_of_nonneg_right hafter (Nat.cast_nonneg (α := K) m)
      have hright := mul_le_mul_of_nonneg_left hbefore (Nat.cast_nonneg (α := K) (n + 1))
      push_cast at hleft hright ⊢
      linarith

/-- Moving either end of a chord up never makes it steeper. -/
theorem chord_le_chord (h : Concave f L U) {a b c d : ℕ} (ha : L ≤ a) (hab : a < b)
    (hcd : c < d) (hac : a ≤ c) (hbd : b ≤ d) (hd : d ≤ U) : chord f c d ≤ chord f a b := by
  have hpos {m n : ℕ} (hmn : m < n) : (0 : K) < n - m := sub_pos.mpr (Nat.cast_lt.mpr hmn)
  have had : a < d := hab.trans_le hbd
  calc chord f c d ≤ chord f a d := by
        rw [chord, chord, div_le_div_iff₀ (hpos hcd) (hpos had)]
        linear_combination h.three_point ha hac hcd.le hd
    _ ≤ chord f a b := by
        rw [chord, chord, div_le_div_iff₀ (hpos had) (hpos hab)]
        linear_combination h.three_point ha hab.le hbd hd

end Concave

end ConcaveSequence
