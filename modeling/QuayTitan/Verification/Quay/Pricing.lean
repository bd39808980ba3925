import QuayTitan.Model.Quay.Quote
import QuayTitan.Library.ConcaveSequence
import QuayTitan.Library.Fallible
import Mathlib.Data.Rat.Cast.Order

/-! # The marginal price of a quote -/

namespace QuayTitan

/-- A price read as an exact rational. -/
def Price.toRat (price : Price) : ℚ := price.numerator / price.denominator

theorem toNat_saturatingAdd (a b : UInt64) :
    (saturatingAdd a b).toNat = min (a.toNat + b.toNat) u64Max := by
  unfold saturatingAdd u64Max
  split
  · rename_i hfits
    rw [UInt64.toNat_add, Nat.mod_eq_of_lt hfits]
    omega
  · rename_i hfits
    rw [show (-1 : UInt64).toNat = 2 ^ 64 - 1 from rfl]
    omega

theorem toNat_saturatingSub (a b : UInt64) :
    (saturatingSub a b).toNat = a.toNat - b.toNat := by
  unfold saturatingSub
  split
  · rename_i hle
    exact UInt64.toNat_sub_of_le _ _ hle
  · rename_i hlt
    rw [UInt64.le_iff_toNat_le] at hlt
    rw [show (0 : UInt64).toNat = 0 from rfl]
    omega

theorem toNat_max (a b : UInt64) : (max a b).toNat = max a.toNat b.toNat := by
  have hmax : max a b = if a ≤ b then b else a := rfl
  rw [hmax]
  split
  · rename_i hle
    exact (Nat.max_eq_right (UInt64.le_iff_toNat_le.mp hle)).symm
  · rename_i hlt
    rw [UInt64.le_iff_toNat_le] at hlt
    exact (Nat.max_eq_left (Nat.le_of_not_le hlt)).symm

namespace Quay

open Fallible ConcaveSequence

/-! ## Curves -/

/-- A simulator that fills exactly the amounts from `L` to `U`, each with a positive output. -/
structure FillsBetween (simulateOut : UInt64 → Option UInt64) (L U : ℕ) : Prop where
  lower_pos : 1 ≤ L
  upper_le : U ≤ u64Max
  isSome_iff : ∀ x, (simulateOut x).isSome = true ↔ L ≤ x.toNat ∧ x.toNat ≤ U
  positive : ∀ x out, simulateOut x = some out → 0 < out

/-- The output for an amount, zero where the simulator refuses it. -/
def outputAt (simulateOut : UInt64 → Option UInt64) (x : ℕ) : ℕ :=
  ((simulateOut (UInt64.ofNat x)).getD 0).toNat

/-- The output curve over the rationals. -/
def curve (simulateOut : UInt64 → Option UInt64) (x : ℕ) : ℚ := outputAt simulateOut x

theorem outputAt_toNat {simulateOut : UInt64 → Option UInt64} {x out : UInt64}
    (h : simulateOut x = some out) : outputAt simulateOut x.toNat = out.toNat := by
  rw [outputAt, UInt64.ofNat_toNat, h, Option.getD_some]

section Branches

variable {f : ℕ → ℚ} {L U h : ℕ}

/-- The forward probe is accepted and gains. -/
def Forward (f : ℕ → ℚ) (U h x : ℕ) : Prop :=
  min (x + h) u64Max ≤ U ∧ f x < f (min (x + h) u64Max)

/-- The backward probe is accepted and loses. -/
def Backward (f : ℕ → ℚ) (L h x : ℕ) : Prop := L + h ≤ x ∧ f (x - h) < f x

open Classical in
/-- The marginal price of a curve that is filled between `L` and `U`, with step `h`. -/
noncomputable def priceAt (f : ℕ → ℚ) (L U h x : ℕ) : ℚ :=
  if Forward f U h x then (f (min (x + h) u64Max) - f x) / h
  else if Backward f L h x then (f x - f (x - h)) / h
  else f x / x

theorem priceAt_forward {x : ℕ} (hx : Forward f U h x) :
    priceAt f L U h x = (f (min (x + h) u64Max) - f x) / h := if_pos hx

theorem priceAt_backward {x : ℕ} (hx : ¬ Forward f U h x) (hx' : Backward f L h x) :
    priceAt f L U h x = (f x - f (x - h)) / h := by
  rw [priceAt, if_neg hx, if_pos hx']

theorem priceAt_average {x : ℕ} (hx : ¬ Forward f U h x) (hx' : ¬ Backward f L h x) :
    priceAt f L U h x = f x / x := by
  rw [priceAt, if_neg hx, if_neg hx']

end Branches

/-! ## Prices -/

section Prices

variable {simulateOut : UInt64 → Option UInt64} {L U : ℕ}

theorem curve_toNat {x out : UInt64} (h : simulateOut x = some out) :
    curve simulateOut x.toNat = out.toNat := by
  rw [curve, outputAt_toNat h]

/-- A probe reads the curve inside its range and is refused outside. -/
theorem FillsBetween.probe (hfills : FillsBetween simulateOut L U) {y : UInt64} {n : ℕ}
    (hy : y.toNat = n) :
    (∃ probed, simulateOut y = some probed ∧ curve simulateOut n = probed.toNat ∧
      L ≤ n ∧ n ≤ U) ∨ simulateOut y = none ∧ ¬ (L ≤ n ∧ n ≤ U) := by
  subst hy
  have hrange := hfills.isSome_iff y
  cases hprobe : simulateOut y with
  | none =>
      rw [hprobe] at hrange
      exact .inr ⟨rfl, fun hin => absurd (hrange.mpr hin) (by simp)⟩
  | some probed =>
      rw [hprobe] at hrange
      exact .inl ⟨probed, rfl, curve_toNat hprobe, hrange.mp rfl⟩

/-- A difference of outputs, read as a rational. -/
theorem toRat_difference {low high h : UInt64} (hlt : low < high) :
    Price.toRat ⟨(high - low).toNat, h.toNat⟩ = ((high.toNat : ℚ) - low.toNat) / h.toNat := by
  have hle : low.toNat ≤ high.toNat := (UInt64.lt_iff_toNat_lt.mp hlt).le
  rw [Price.toRat, UInt64.toNat_sub_of_le _ _ (UInt64.le_iff_toNat_le.mpr hle),
    Nat.cast_sub hle]

theorem FillsBetween.toRat_backwardPrice (hfills : FillsBetween simulateOut L U)
    {a out h : UInt64} (ha : simulateOut a = some out)
    (hforward : ¬ Forward (curve simulateOut) U h.toNat a.toNat) :
    (backwardPrice simulateOut h a out).toRat =
      priceAt (curve simulateOut) L U h.toNat a.toNat := by
  have hout := curve_toNat ha
  have hL := hfills.lower_pos
  have haverage (hrise : ¬ Backward (curve simulateOut) L h.toNat a.toNat) :
      Price.toRat ⟨out.toNat, a.toNat⟩ = priceAt (curve simulateOut) L U h.toNat a.toNat := by
    rw [priceAt_average hforward hrise, hout, Price.toRat]
  unfold backwardPrice
  rcases hfills.probe (toNat_saturatingSub a h) with
    ⟨down, hprobe, hdown, hlower, hupper⟩ | ⟨hprobe, hrefused⟩
  · rw [hprobe]
    simp only
    split
    · rename_i hlt
      have hbackward : Backward (curve simulateOut) L h.toNat a.toNat := by
        refine ⟨by omega, ?_⟩
        rw [hdown, hout]
        exact Nat.cast_lt.mpr (UInt64.lt_iff_toNat_lt.mp hlt)
      rw [priceAt_backward hforward hbackward, hout, hdown, toRat_difference hlt]
    · rename_i hge
      apply haverage
      rintro ⟨_, hrise⟩
      rw [hdown, hout] at hrise
      exact hge (UInt64.lt_iff_toNat_lt.mpr (Nat.cast_lt.mp hrise))
  · rw [hprobe]
    apply haverage
    rintro ⟨hfits, _⟩
    have hrange := (hfills.isSome_iff a).mp (by rw [ha]; rfl)
    exact hrefused ⟨by omega, by omega⟩

/-- The price of a filled quote, in terms of the curve. -/
theorem FillsBetween.toRat_marginalPrice (hfills : FillsBetween simulateOut L U)
    {a out : UInt64} (ha : simulateOut a = some out) (priceProbeIn : UInt64) :
    (marginalPrice simulateOut priceProbeIn a out).toRat =
      priceAt (curve simulateOut) L U (max priceProbeIn 1).toNat a.toNat := by
  have hout := curve_toNat ha
  have hbackward := hfills.toRat_backwardPrice (h := max priceProbeIn 1) ha
  unfold marginalPrice
  simp only
  rcases hfills.probe (toNat_saturatingAdd a (max priceProbeIn 1)) with
    ⟨up, hprobe, hup, hlower, hupper⟩ | ⟨hprobe, hrefused⟩
  · rw [hprobe]
    simp only
    split
    · rename_i hlt
      have hforward : Forward (curve simulateOut) U (max priceProbeIn 1).toNat a.toNat := by
        refine ⟨hupper, ?_⟩
        rw [hup, hout]
        exact Nat.cast_lt.mpr (UInt64.lt_iff_toNat_lt.mp hlt)
      rw [priceAt_forward hforward, hup, hout, toRat_difference hlt]
    · rename_i hge
      apply hbackward
      rintro ⟨_, hrise⟩
      rw [hup, hout] at hrise
      exact hge (UInt64.lt_iff_toNat_lt.mpr (Nat.cast_lt.mp hrise))
  · rw [hprobe]
    apply hbackward
    rintro ⟨hfits, _⟩
    have hrange := (hfills.isSome_iff a).mp (by rw [ha]; rfl)
    have hupper := hfills.upper_le
    exact hrefused ⟨by omega, hfits⟩

/-- A positive amount inside the range is quoted at the price of the curve. -/
theorem FillsBetween.toRat_pricedQuote (hfills : FillsBetween simulateOut L U)
    (priceProbeIn : UInt64) (request : QuoteRequest) {a : UInt64} (hlower : L ≤ a.toNat)
    (hupper : a.toNat ≤ U) :
    (pricedQuote simulateOut priceProbeIn { request with amount := a }).price.toRat =
      priceAt (curve simulateOut) L U (max priceProbeIn 1).toNat a.toNat := by
  have hL := hfills.lower_pos
  have hne : a ≠ 0 := by
    rintro rfl
    rw [UInt64.toNat_zero] at hlower
    omega
  obtain ⟨out, hout⟩ := Option.isSome_iff_exists.mp ((hfills.isSome_iff a).mpr ⟨hlower, hupper⟩)
  simp only [pricedQuote, if_neg hne, hout]
  exact hfills.toRat_marginalPrice hout priceProbeIn

end Prices

/-! ## Quotes -/

/-- The venue answers the request, whatever its amount is. -/
structure Quotable (sdk : Sdk) (venue : QuayVenue) (request : QuoteRequest)
    (side baseDecimals quoteDecimals : UInt8) : Prop where
  exactIn : request.swapType ≠ .exactOut
  side_eq : venue.sideOf request.inputMint request.outputMint = .ok side
  initialized : venue.initialized sdk = true
  base_eq : venue.decimalsOf venue.baseMint "base TokenInfo" = .ok baseDecimals
  quote_eq : venue.decimalsOf venue.quoteMint "quote TokenInfo" = .ok quoteDecimals

theorem gate_closed_iff {sdk : Sdk} {venue : QuayVenue} :
    (venue.routingFlags &&& sdk.routeTitan = 0 ∨ !venue.hasAllState ∨ !venue.haltsClear) ↔
      venue.initialized sdk = false := by
  simp only [QuayVenue.initialized, Bool.and_eq_false_iff, decide_eq_false_iff_not,
    Bool.not_eq_true', not_not, or_assoc]

theorem computeQuote_ok_iff {sdk : Sdk} {venue : QuayVenue} {request : QuoteRequest}
    {result : QuoteResult} :
    venue.computeQuote sdk request = .ok result ↔
      ∃ side baseDecimals quoteDecimals,
        Quotable sdk venue request side baseDecimals quoteDecimals ∧
        result = pricedQuote (venue.simulateOut sdk side baseDecimals quoteDecimals)
          (venue.priceProbeIn side) request := by
  by_cases hexact : request.swapType = .exactOut
  · rw [QuayVenue.computeQuote, if_pos hexact]
    constructor
    · intro h
      cases h
    · rintro ⟨_, _, _, hquotable, _⟩
      exact absurd hexact hquotable.exactIn
  rw [QuayVenue.computeQuote, if_neg hexact]
  by_cases hinit : venue.initialized sdk = true
  · have hopen : ¬ (venue.routingFlags &&& sdk.routeTitan = 0 ∨ !venue.hasAllState ∨
        !venue.haltsClear) := by
      rw [gate_closed_iff, hinit]
      simp
    simp only [if_neg hopen, bind_eq_ok, pure_eq_ok]
    constructor
    · rintro ⟨side, hside, baseDecimals, hbase, quoteDecimals, hquote, rfl⟩
      exact ⟨side, baseDecimals, quoteDecimals, ⟨hexact, hside, hinit, hbase, hquote⟩, rfl⟩
    · rintro ⟨side, baseDecimals, quoteDecimals, hquotable, rfl⟩
      exact ⟨side, hquotable.side_eq, baseDecimals, hquotable.base_eq, quoteDecimals,
        hquotable.quote_eq, rfl⟩
  · have hclosed := gate_closed_iff.mpr (Bool.eq_false_iff.mpr hinit)
    simp only [if_pos hclosed, bind_eq_ok]
    constructor
    · rintro ⟨_, _, _, hthrow, _⟩
      cases hthrow
    · rintro ⟨_, _, _, hquotable, _⟩
      exact absurd hquotable.initialized hinit

/-- A quotable request is answered for every amount. -/
theorem Quotable.computeQuote_amount {sdk : Sdk} {venue : QuayVenue} {request : QuoteRequest}
    {side baseDecimals quoteDecimals : UInt8}
    (h : Quotable sdk venue request side baseDecimals quoteDecimals) (a : UInt64) :
    venue.computeQuote sdk { request with amount := a } =
      .ok (pricedQuote (venue.simulateOut sdk side baseDecimals quoteDecimals)
        (venue.priceProbeIn side) { request with amount := a }) :=
  computeQuote_ok_iff.mpr ⟨side, baseDecimals, quoteDecimals,
    ⟨h.exactIn, h.side_eq, h.initialized, h.base_eq, h.quote_eq⟩, rfl⟩

end Quay

end QuayTitan
