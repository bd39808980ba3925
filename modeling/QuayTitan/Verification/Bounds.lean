import QuayTitan.Model.Bounds

/-! # Soundness of the boundary search -/

namespace QuayTitan.Bounds

open Fallible

variable {f : Quoting}

/-! ## Arithmetic of amounts -/

@[simp] theorem toNat_maxU64 : maxU64.toNat = u64Max := rfl

theorem toNat_le_u64Max (x : UInt64) : x.toNat ≤ u64Max := by
  have hx := x.toNat_lt
  simp only [u64Max]
  omega

theorem toNat_saturatingMul (a b : UInt64) :
    (saturatingMul a b).toNat = min (a.toNat * b.toNat) u64Max := by
  rw [saturatingMul]
  split
  · rename_i h
    rw [UInt64.toNat_mul, Nat.mod_eq_of_lt h]
    simp only [u64Max]
    omega
  · rw [toNat_maxU64]
    simp only [u64Max] at *
    omega

theorem toNat_doubled (a : UInt64) :
    (saturatingMul a scalingFactor).toNat = min (a.toNat * 2) u64Max :=
  toNat_saturatingMul a scalingFactor

theorem checkedSub_of_le {low high : UInt64} (h : low ≤ high) :
    checkedSub high low = .ok (high - low) := if_pos h

/-- Two halves never overflow. -/
theorem checkedAdd_halves (a b : UInt64) : checkedAdd (a / 2) (b / 2) = .ok (a / 2 + b / 2) := by
  apply if_pos
  have ha := a.toNat_lt
  have hb := b.toNat_lt
  rw [UInt64.toNat_div, UInt64.toNat_div]
  change a.toNat / 2 + b.toNat / 2 < 2 ^ 64
  omega

/-! ## Bisection -/

theorem bisect_eq (p : UInt64 → Bool) {low high : UInt64} (h : low ≤ high) :
    bisect p low high =
      if 100 < high - low then
        if p (high / 2 + low / 2) then bisect p low (high / 2 + low / 2)
        else bisect p (high / 2 + low / 2) high
      else .ok (low, high) := by
  rw [bisect]
  split
  · rename_i stop hwidth
    rw [checkedSub_of_le h] at hwidth
    cases hwidth
  · rename_i width hwidth
    rw [checkedSub_of_le h] at hwidth
    obtain rfl := Except.ok.inj hwidth
    split
    · split
      · rename_i stop hmid
        rw [checkedAdd_halves] at hmid
        cases hmid
      · rename_i mid hmid
        rw [checkedAdd_halves] at hmid
        rw [Except.ok.inj hmid]
    · rfl

/-- Where a bisection of an ordered interval ends: in a narrow interval inside it, whose
lower end satisfies `P` and whose upper end satisfies `Q`. -/
structure Narrowed (P Q : UInt64 → Prop) (low high : UInt64) (ends : UInt64 × UInt64) :
    Prop where
  lower : P ends.1
  upper : Q ends.2
  le_lower : low ≤ ends.1
  ordered : ends.1 ≤ ends.2
  strict : low < high → ends.1 < ends.2
  upper_le : ends.2 ≤ high
  narrow : ends.2.toNat ≤ ends.1.toNat + 100

theorem bisect_spec {p : UInt64 → Bool} {P Q : UInt64 → Prop} (hQ : ∀ x, p x = true → Q x)
    (hP : ∀ x, p x = false → P x) (low high : UInt64) (hle : low ≤ high) (hlow : P low)
    (hhigh : Q high) : ∃ ends, bisect p low high = .ok ends ∧ Narrowed P Q low high ends := by
  induction hwidth : high.toNat - low.toNat using Nat.strong_induction_on generalizing low high with
  | h width ih =>
      rw [bisect_eq p hle]
      split
      · rename_i hwide
        obtain ⟨hmid₁, hmid₂⟩ :=
          midpoint_between (checkedSub_of_le hle) hwide (checkedAdd_halves high low)
        have hle₁ := UInt64.le_iff_toNat_le.mpr hmid₁.le
        have hle₂ := UInt64.le_iff_toNat_le.mpr hmid₂.le
        cases hp : p (high / 2 + low / 2) with
        | true =>
            obtain ⟨ends, hends, hspec⟩ :=
              ih _ (by omega) low (high / 2 + low / 2) hle₁ hlow (hQ _ hp) rfl
            exact ⟨ends, hends, { hspec with
              strict := fun _ => hspec.strict (UInt64.lt_iff_toNat_lt.mpr hmid₁)
              upper_le := UInt64.le_trans hspec.upper_le hle₂ }⟩
        | false =>
            obtain ⟨ends, hends, hspec⟩ :=
              ih _ (by omega) (high / 2 + low / 2) high hle₂ (hP _ hp) hhigh rfl
            exact ⟨ends, hends, { hspec with
              strict := fun _ => hspec.strict (UInt64.lt_iff_toNat_lt.mpr hmid₂)
              le_lower := UInt64.le_trans hle₁ hspec.le_lower }⟩
      · rename_i hnarrow
        refine ⟨(low, high), rfl, hlow, hhigh, UInt64.le_refl _, hle, id, UInt64.le_refl _, ?_⟩
        rw [UInt64.lt_iff_toNat_lt, UInt64.toNat_sub_of_le high low hle] at hnarrow
        change ¬ 100 < high.toNat - low.toNat at hnarrow
        change high.toNat ≤ low.toNat + 100
        omega

/-! ## The coarse search -/

/-- The amounts the first loop can probe. -/
def sample (k : ℕ) : UInt64 := .ofNat (2 ^ k)

theorem toNat_sample {k : ℕ} (h : k ≤ 63) : (sample k).toNat = 2 ^ k :=
  UInt64.toNat_ofNat_of_lt' ((Nat.pow_le_pow_right (by decide) h).trans_lt (by decide))

theorem sample_lt_maxU64 {k : ℕ} (h : k ≤ 63) : sample k < maxU64 := by
  rw [UInt64.lt_iff_toNat_lt, toNat_sample h]
  exact (Nat.pow_le_pow_right (by decide) h).trans_lt (by decide)

theorem doubled_sample {k : ℕ} (h : k < 63) :
    saturatingMul (sample k) scalingFactor = sample (k + 1) := by
  apply UInt64.toNat.inj
  have hpow : 2 ^ (k + 1) ≤ 2 ^ 63 := Nat.pow_le_pow_right (by decide) (by omega)
  rw [toNat_doubled, toNat_sample (by omega), toNat_sample (by omega), ← Nat.pow_succ,
    Nat.min_eq_left (hpow.trans (by decide))]

theorem doubled_last : saturatingMul (sample 63) scalingFactor = maxU64 := by decide

theorem sample_lt_succ {k : ℕ} (h : k < 63) : sample k < sample (k + 1) := by
  rw [UInt64.lt_iff_toNat_lt, toNat_sample (by omega), toNat_sample (by omega)]
  exact Nat.pow_lt_pow_right (by decide) (by omega)

theorem expandLower_step {k : ℕ} (low : UInt64) (hk : k < 63)
    (hinvalid : quotes f (sample k) = false) :
    expandLower f low (sample k) = expandLower f (sample k) (sample (k + 1)) := by
  have hlt := sample_lt_succ hk
  have hmax := @sample_lt_maxU64 (k + 1) (by omega)
  rw [expandLower, hinvalid, doubled_sample hk, if_neg (by simp), dif_neg]
  rw [not_or, UInt64.not_le]
  exact ⟨hlt, UInt64.ne_of_lt hmax⟩

theorem expandLower_last (low : UInt64) (hinvalid : quotes f (sample 63) = false) :
    expandLower f low (sample 63) = (sample 63, maxU64) := by
  rw [expandLower, hinvalid, if_neg (by simp), dif_pos (.inr doubled_last)]

/-- An amount below which the first loop found nothing. -/
def Rejected (f : Quoting) (low : UInt64) : Prop := low = 0 ∨ quotes f low = false

/-- The first loop stops at the first valid sample, or misses all of them. -/
theorem expandLower_cases (k : ℕ) (hk : k ≤ 63) (low : UInt64) (hlow : low < sample k)
    (hrejected : Rejected f low) :
    (∃ j low', k ≤ j ∧ j ≤ 63 ∧ quotes f (sample j) = true ∧
        expandLower f low (sample k) = (low', sample j) ∧ low' < sample j ∧ Rejected f low') ∨
      ((∀ j, k ≤ j → j ≤ 63 → quotes f (sample j) = false) ∧
        expandLower f low (sample k) = (sample 63, maxU64)) := by
  induction hd : 63 - k generalizing k low with
  | zero =>
      obtain rfl : k = 63 := by omega
      cases hvalid : quotes f (sample 63) with
      | true =>
          refine .inl ⟨63, low, le_rfl, le_rfl, hvalid, ?_, hlow, hrejected⟩
          rw [expandLower, if_pos hvalid]
      | false =>
          refine .inr ⟨fun j hj₁ hj₂ => ?_, expandLower_last low hvalid⟩
          rwa [show j = 63 by omega]
  | succ d ih =>
      cases hvalid : quotes f (sample k) with
      | true =>
          refine .inl ⟨k, low, le_rfl, hk, hvalid, ?_, hlow, hrejected⟩
          rw [expandLower, if_pos hvalid]
      | false =>
          rw [expandLower_step low (by omega) hvalid]
          rcases ih (k + 1) (by omega) (sample k) (sample_lt_succ (by omega)) (.inr hvalid)
            (by omega) with ⟨j, low', hj, hfound⟩ | ⟨hnone, hmissed⟩
          · exact .inl ⟨j, low', by omega, hfound⟩
          · refine .inr ⟨fun j hj₁ hj₂ => ?_, hmissed⟩
            rcases Nat.eq_or_lt_of_le hj₁ with rfl | hlt
            · exact hvalid
            · exact hnone j hlt hj₂

/-- An amount above which the second loop did not go on. -/
def Stopped (f : Quoting) (high : UInt64) : Prop := high = maxU64 ∨ quotes f high = false

theorem le_maxU64 (x : UInt64) : x ≤ maxU64 := UInt64.le_iff_toNat_le.mpr (toNat_le_u64Max x)

/-- The second loop keeps a valid lower end. -/
theorem expandUpper_spec (low high : UInt64) (hlt : low < high) (hlow : quotes f low = true) :
    ∃ upperLow upperHigh, expandUpper f low high = (upperLow, upperHigh) ∧
      low ≤ upperLow ∧ upperLow ≤ upperHigh ∧ quotes f upperLow = true ∧
      Stopped f upperHigh := by
  induction low, high using expandUpper.induct f with
  | case1 low high hvalid hlast =>
      refine ⟨high, maxU64, ?_, UInt64.le_of_lt hlt, le_maxU64 high, hvalid, .inl rfl⟩
      rw [expandUpper, if_pos hvalid, dif_pos hlast]
  | case2 low high hvalid hnext ih =>
      obtain ⟨upperLow, upperHigh, hresult, hle, hspec⟩ :=
        ih (UInt64.lt_iff_toNat_lt.mpr (lt_saturatingMul hnext).1) hvalid
      refine ⟨upperLow, upperHigh, ?_, UInt64.le_trans (UInt64.le_of_lt hlt) hle, hspec⟩
      rw [expandUpper, if_pos hvalid, dif_neg hnext, hresult]
  | case3 low high hinvalid =>
      refine ⟨low, high, ?_, UInt64.le_refl _, UInt64.le_of_lt hlt, hlow, ?_⟩
      · rw [expandUpper, if_neg hinvalid]
      · exact .inr (Bool.not_eq_true _ ▸ hinvalid)

/-- What the coarse search hands to the refinements after it found a valid sample. -/
structure Coarse (f : Quoting) (bounds : CoarseBounds) : Prop where
  lower_lt : bounds.lowerLow < bounds.lowerHigh
  found : bounds.lowerHigh < maxU64
  rejected : Rejected f bounds.lowerLow
  lower_valid : quotes f bounds.lowerHigh = true
  le_upper : bounds.lowerHigh ≤ bounds.upperLow
  upper_le : bounds.upperLow ≤ bounds.upperHigh
  upper_valid : quotes f bounds.upperLow = true
  stopped : Stopped f bounds.upperHigh

theorem lt_doubled {x : UInt64} (hpos : 0 < x) (hmax : x < maxU64) :
    x < saturatingMul x scalingFactor := by
  rw [UInt64.lt_iff_toNat_lt] at *
  rw [toNat_doubled]
  rw [toNat_maxU64] at hmax
  change 0 < x.toNat at hpos
  omega

theorem findBoundariesCoarse_cases (f : Quoting) :
    ((∃ k ≤ 63, quotes f (sample k) = true) ∧ Coarse f (findBoundariesCoarse f)) ∨
      ((∀ k ≤ 63, quotes f (sample k) = false) ∧
        findBoundariesCoarse f = ⟨sample 63, maxU64, maxU64, maxU64⟩) := by
  unfold findBoundariesCoarse
  rcases @expandLower_cases f 0 (by omega) 0 (by decide) (.inl rfl) with
    ⟨k, low, _, hk, hvalid, hlower, hlow, hrejected⟩ | ⟨hnone, hlower⟩
  · left
    change expandLower f 0 1 = (low, sample k) at hlower
    have hmax := sample_lt_maxU64 hk
    have hgrows : sample k < saturatingMul (sample k) scalingFactor :=
      lt_doubled (UInt64.lt_of_le_of_lt (UInt64.zero_le) hlow) hmax
    obtain ⟨upperLow, upperHigh, hupper, hle₁, hle₂, hvalid', hstopped⟩ :=
      expandUpper_spec (sample k) _ hgrows hvalid
    refine ⟨⟨k, hk, hvalid⟩, ?_⟩
    rw [hlower]
    simp only [if_neg (UInt64.not_le.mpr hgrows), hupper]
    exact ⟨hlow, hmax, hrejected, hvalid, hle₁, hle₂, hvalid', hstopped⟩
  · right
    change expandLower f 0 1 = (sample 63, maxU64) at hlower
    refine ⟨fun k hk => hnone k k.zero_le hk, ?_⟩
    rw [hlower]
    rfl

/-! ## The whole search -/

/-- What the boundaries promise for an arbitrary quoting function. -/
structure Bounded (f : Quoting) (lower upper : UInt64) : Prop where
  one_le : 1 ≤ lower
  ordered : lower ≤ upper
  lower_valid : quotes f lower = true
  upper_valid : quotes f upper = true
  lower_edge : lower ≤ 100 ∨
    ∃ x, lower.toNat ≤ x.toNat + 100 ∧ x < lower ∧ quotes f x = false
  upper_edge : u64Max ≤ upper.toNat + 100 ∨
    ∃ x, upper < x ∧ x.toNat ≤ upper.toNat + 100 ∧ quotes f x = false

theorem refineLower_spec {low high : UInt64} (hlt : low < high) (hlow : Rejected f low)
    (hhigh : quotes f high = true) :
    ∃ lower, refineLower f low high = .ok lower ∧ 0 < lower ∧ lower ≤ high ∧
      quotes f lower = true ∧ (lower ≤ 100 ∨
        ∃ x, lower.toNat ≤ x.toNat + 100 ∧ x < lower ∧ quotes f x = false) := by
  obtain ⟨⟨low', lower⟩, hbisect, hspec⟩ := @bisect_spec (quotes f) (Rejected f)
    (quotes f · = true) (fun _ => id) (fun _ => .inr) low high (UInt64.le_of_lt hlt) hlow hhigh
  have hstrict := hspec.strict hlt
  refine ⟨lower, ?_, UInt64.lt_of_le_of_lt UInt64.zero_le hstrict, hspec.upper_le, hspec.upper, ?_⟩
  · rw [refineLower, hbisect]
    rfl
  · rcases hspec.lower with hzero | hinvalid
    · left
      have hnarrow := hspec.narrow
      change low' = 0 at hzero
      rw [hzero] at hnarrow
      exact UInt64.le_iff_toNat_le.mpr (by simpa using hnarrow)
    · exact .inr ⟨low', hspec.narrow, hstrict, hinvalid⟩

theorem refineUpper_spec {low high : UInt64} (hle : low ≤ high) (hlow : quotes f low = true)
    (hhigh : Stopped f high) :
    ∃ upper, refineUpper f low high = .ok upper ∧ low ≤ upper ∧ quotes f upper = true ∧
      (u64Max ≤ upper.toNat + 100 ∨
        ∃ x, upper < x ∧ x.toNat ≤ upper.toNat + 100 ∧ quotes f x = false) := by
  obtain ⟨⟨upper, high'⟩, hbisect, hspec⟩ := @bisect_spec (fun x => !quotes f x)
    (quotes f · = true) (Stopped f) (fun x hx => .inr (by simpa using hx))
    (fun x hx => by simpa using hx) low high hle hlow hhigh
  refine ⟨upper, ?_, hspec.le_lower, hspec.lower, ?_⟩
  · rw [refineUpper, hbisect]
    rfl
  · rcases hspec.upper with hmax | hinvalid
    · left
      have hnarrow := hspec.narrow
      change high' = maxU64 at hmax
      rwa [hmax, toNat_maxU64] at hnarrow
    · refine .inr ⟨high', UInt64.lt_of_le_of_ne hspec.ordered ?_, hspec.narrow, hinvalid⟩
      rintro rfl
      have hvalid := hspec.lower
      change quotes f upper = false at hinvalid
      change quotes f upper = true at hvalid
      rw [hvalid] at hinvalid
      cases hinvalid

/-- The search fails when every sample is invalid. -/
theorem findBoundaries_missed (h : ∀ k ≤ 63, quotes f (sample k) = false) :
    findBoundaries f = .error (.returned (.noQuotableValue
      (.staticStr "No quotable value found; exponential search hit u64::MAX"))) := by
  rcases findBoundariesCoarse_cases f with ⟨⟨k, hk, hvalid⟩, _⟩ | ⟨_, hcoarse⟩
  · rw [h k hk] at hvalid
    cases hvalid
  · unfold findBoundaries
    rw [hcoarse]
    rfl

/-- The search succeeds when some sample is valid. -/
theorem findBoundaries_found {k : ℕ} (hk : k ≤ 63) (hvalid : quotes f (sample k) = true) :
    ∃ lower upper, findBoundaries f = .ok (lower, upper) ∧ Bounded f lower upper := by
  rcases findBoundariesCoarse_cases f with ⟨_, hcoarse⟩ | ⟨hnone, _⟩
  · obtain ⟨lower, hlower, hpos, hle, hlvalid, hledge⟩ :=
      refineLower_spec hcoarse.lower_lt hcoarse.rejected hcoarse.lower_valid
    obtain ⟨upper, hupper, hge, huvalid, huedge⟩ :=
      refineUpper_spec hcoarse.upper_le hcoarse.upper_valid hcoarse.stopped
    have hordered : (findBoundariesCoarse f).lowerLow ≠ (findBoundariesCoarse f).upperHigh :=
      UInt64.ne_of_lt (UInt64.lt_of_lt_of_le hcoarse.lower_lt
        (UInt64.le_trans hcoarse.le_upper hcoarse.upper_le))
    refine ⟨lower, upper, ?_, ?_⟩
    · simp only [findBoundaries, if_neg hordered, if_neg (UInt64.ne_of_lt hcoarse.found), hlower,
        hupper]
      rfl
    · exact {
        one_le := UInt64.le_iff_toNat_le.mpr (UInt64.lt_iff_toNat_lt.mp hpos)
        ordered := UInt64.le_trans hle (UInt64.le_trans hcoarse.le_upper hge)
        lower_valid := hlvalid
        upper_valid := huvalid
        lower_edge := hledge
        upper_edge := huedge }
  · rw [hnone k hk] at hvalid
    cases hvalid

/-- The valid amounts are those from `L` to `U`. -/
def Window (f : Quoting) (L U : UInt64) : Prop := ∀ x, quotes f x = true ↔ L ≤ x ∧ x ≤ U

theorem Window.invalid {L U x : UInt64} (h : Window f L U) (hx : quotes f x = false) :
    x.toNat < L.toNat ∨ U.toNat < x.toNat := by
  by_contra hinside
  rw [not_or, not_lt, not_lt, ← UInt64.le_iff_toNat_le, ← UInt64.le_iff_toNat_le, ← h x,
    hx] at hinside
  cases hinside

/-- Some sample is valid exactly when the window contains a power of two. -/
theorem Window.sample_iff {L U : UInt64} (h : Window f L U) :
    (∃ k ≤ 63, quotes f (sample k) = true) ↔ ∃ k, L.toNat ≤ 2 ^ k ∧ 2 ^ k ≤ U.toNat := by
  constructor
  · rintro ⟨k, hk, hvalid⟩
    have hinside := (h _).mp hvalid
    rw [UInt64.le_iff_toNat_le, UInt64.le_iff_toNat_le, toNat_sample hk] at hinside
    exact ⟨k, hinside⟩
  · rintro ⟨k, hinside⟩
    have hk : k < 64 := (Nat.pow_lt_pow_iff_right (by decide : 1 < 2)).mp
      (hinside.2.trans_lt U.toNat_lt)
    refine ⟨k, by omega, (h _).mpr ?_⟩
    rw [UInt64.le_iff_toNat_le, UInt64.le_iff_toNat_le, toNat_sample (by omega)]
    exact hinside

/-- On a window, both boundaries are precise and nothing between them is invalid. -/
theorem Bounded.window {L U lower upper : UInt64} (hL : 1 ≤ L) (h : Window f L U)
    (hbounded : Bounded f lower upper) :
    L ≤ lower ∧ lower.toNat ≤ L.toNat + 99 ∧ U.toNat ≤ upper.toNat + 100 ∧ upper ≤ U ∧
      ∀ x, lower ≤ x → x ≤ upper → quotes f x = true := by
  have hlower := (h lower).mp hbounded.lower_valid
  have hupper := (h upper).mp hbounded.upper_valid
  have hone := UInt64.le_iff_toNat_le.mp hL
  change 1 ≤ L.toNat at hone
  refine ⟨hlower.1, ?_, ?_, hupper.2, fun x hx₁ hx₂ => (h x).mpr
    ⟨UInt64.le_trans hlower.1 hx₁, UInt64.le_trans hx₂ hupper.2⟩⟩
  · rcases hbounded.lower_edge with hsmall | ⟨x, hclose, hlt, hinvalid⟩
    · have hsmall' := UInt64.le_iff_toNat_le.mp hsmall
      change lower.toNat ≤ 100 at hsmall'
      omega
    · have hltNat := UInt64.lt_iff_toNat_lt.mp hlt
      have hle := UInt64.le_iff_toNat_le.mp hlower.2
      rcases h.invalid hinvalid with hbelow | habove
      · omega
      · omega
  · rcases hbounded.upper_edge with hlarge | ⟨x, hlt, hclose, hinvalid⟩
    · exact (toNat_le_u64Max U).trans hlarge
    · have hltNat := UInt64.lt_iff_toNat_lt.mp hlt
      have hge := UInt64.le_iff_toNat_le.mp hupper.1
      rcases h.invalid hinvalid with hbelow | habove
      · omega
      · omega

/-- The search never panics; it fails exactly when every sample is invalid, and otherwise its
boundaries are valid, ordered and precise to a hundred atoms. -/
theorem findBoundaries_sound (f : Quoting) :
    findBoundaries f ≠ .error .panicked ∧
      (∀ e, findBoundaries f = .error (.returned e) ↔
        (∀ k ≤ 63, quotes f (sample k) = false) ∧ e = .noQuotableValue
          (.staticStr "No quotable value found; exponential search hit u64::MAX")) ∧
      (∀ lower upper, findBoundaries f = .ok (lower, upper) → Bounded f lower upper) ∧
      ∀ L U, 1 ≤ L → Window f L U → (∃ k, L.toNat ≤ 2 ^ k ∧ 2 ^ k ≤ U.toNat) →
        ∃ lower upper, findBoundaries f = .ok (lower, upper) ∧ L ≤ lower ∧
          lower.toNat ≤ L.toNat + 99 ∧ U.toNat ≤ upper.toNat + 100 ∧ upper ≤ U ∧
          ∀ x, lower ≤ x → x ≤ upper → quotes f x = true := by
  by_cases h : ∃ k ≤ 63, quotes f (sample k) = true
  · obtain ⟨k, hk, hvalid⟩ := h
    obtain ⟨lower, upper, hfound, hbounded⟩ := findBoundaries_found hk hvalid
    rw [hfound]
    refine ⟨by simp, fun e => ?_, fun lower' upper' hsame => ?_, fun L U hL hwindow _ => ?_⟩
    · constructor
      · intro herror
        cases herror
      · rintro ⟨hnone, _⟩
        rw [hnone k hk] at hvalid
        cases hvalid
    · obtain ⟨rfl, rfl⟩ := Prod.mk.inj (Except.ok.inj hsame)
      exact hbounded
    · exact ⟨lower, upper, rfl, hbounded.window hL hwindow⟩
  · have hnone : ∀ k ≤ 63, quotes f (sample k) = false := by
      intro k hk
      rw [← Bool.not_eq_true]
      exact fun hvalid => h ⟨k, hk, hvalid⟩
    rw [findBoundaries_missed hnone]
    refine ⟨by simp, fun e => ?_, fun lower upper hfound => ?_, fun L U _ hwindow hpower => ?_⟩
    · constructor
      · intro herror
        exact ⟨hnone, by simpa using herror.symm⟩
      · rintro ⟨_, rfl⟩
        rfl
    · cases hfound
    · exact absurd (hwindow.sample_iff.mpr hpower) h

/-- On a window of valid amounts, the search succeeds exactly when the window contains a
power of two. -/
theorem findBoundaries_ok_iff {L U : UInt64} (h : Window f L U) :
    (∃ bounds, findBoundaries f = .ok bounds) ↔ ∃ k, L.toNat ≤ 2 ^ k ∧ 2 ^ k ≤ U.toNat := by
  rw [← h.sample_iff]
  constructor
  · rintro ⟨bounds, hbounds⟩
    by_contra hnone
    rw [findBoundaries_missed] at hbounds
    · cases hbounds
    · intro k hk
      rw [← Bool.not_eq_true]
      exact fun hvalid => hnone ⟨k, hk, hvalid⟩
  · rintro ⟨k, hk, hvalid⟩
    obtain ⟨lower, upper, hfound, _⟩ := findBoundaries_found hk hvalid
    exact ⟨_, hfound⟩

namespace Sample

/-- A pool that fills the amounts from `L` to `U`. -/
def windowed (L U : UInt64) : Quoting := fun amount => .ok {
  inputMint := default
  outputMint := default
  amount
  expectedOutput := 1
  notEnoughLiquidity := !(decide (L ≤ amount) && decide (amount ≤ U))
  price := ⟨1, 1⟩ }

theorem window_windowed (L U : UInt64) : Window (windowed L U) L U := by
  intro x
  simp [quotes, windowed, validQuote]

theorem findBoundaries_ok_iff_windowed :
    (∃ bounds, findBoundaries (windowed 3 200) = .ok bounds) ↔
      ∃ k, (3 : UInt64).toNat ≤ 2 ^ k ∧ 2 ^ k ≤ (200 : UInt64).toNat :=
  findBoundaries_ok_iff (window_windowed 3 200)

/-- No sample lies between 600000000 and 1000000000. -/
theorem quotes_windowed_sample {k : ℕ} (hk : k ≤ 63) :
    quotes (windowed 600000000 1000000000) (sample k) = false := by
  rw [← Bool.not_eq_true, window_windowed, UInt64.le_iff_toNat_le, UInt64.le_iff_toNat_le,
    toNat_sample hk]
  rintro ⟨hlower, hupper⟩
  change 600000000 ≤ 2 ^ k at hlower
  change 2 ^ k ≤ 1000000000 at hupper
  rcases Nat.lt_or_ge k 30 with hsmall | hlarge
  · have hpow : 2 ^ k ≤ 2 ^ 29 := Nat.pow_le_pow_right (by decide) (by omega)
    omega
  · have hpow : 2 ^ 30 ≤ 2 ^ k := Nat.pow_le_pow_right (by decide) hlarge
    omega

/-- A pool with a minimal and a maximal fill, both between two powers of two, is reported as
unusable. -/
theorem findBoundaries_incomplete :
    ¬ ∀ (f : Quoting) (L U : UInt64), 1 ≤ L → L ≤ U → Window f L U →
      ∃ bounds, findBoundaries f = .ok bounds := by
  intro h
  obtain ⟨bounds, hbounds⟩ := h (windowed 600000000 1000000000) 600000000 1000000000 (by decide)
    (by decide) (window_windowed _ _)
  rw [findBoundaries_missed fun k hk => quotes_windowed_sample hk] at hbounds
  cases hbounds

end Sample

end QuayTitan.Bounds
