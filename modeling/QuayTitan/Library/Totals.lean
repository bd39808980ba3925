import Mathlib.Algebra.BigOperators.Group.Finset.Basic

/-! # Totals over a finite set of holders

A total is unchanged by whatever only moves a quantity between some of the holders. -/

namespace Totals

variable {κ M : Type*} [DecidableEq κ] [AddCommMonoid M] {S T : Finset κ} {f g : κ → M}

/-- A change inside `T` that keeps the total of `T` keeps the total of every larger set. -/
theorem sum_eq_of_local (hsub : T ⊆ S) (htotal : ∑ k ∈ T, g k = ∑ k ∈ T, f k)
    (hframe : ∀ k ∉ T, g k = f k) : ∑ k ∈ S, g k = ∑ k ∈ S, f k := by
  rw [← Finset.sum_sdiff hsub, ← Finset.sum_sdiff hsub, htotal]
  congr 1
  apply Finset.sum_congr rfl
  intro k hk
  exact hframe k (Finset.mem_sdiff.mp hk).2

/-- Two holders may exchange what they hold. -/
theorem sum_eq_of_exchange {a b : κ} (ha : a ∈ S) (hb : b ∈ S) (hne : a ≠ b)
    (hpair : g a + g b = f a + f b) (hframe : ∀ k, k ≠ a → k ≠ b → g k = f k) :
    ∑ k ∈ S, g k = ∑ k ∈ S, f k := by
  refine sum_eq_of_local (T := {a, b}) ?_ ?_ ?_
  · intro k hk
    rcases Finset.mem_insert.mp hk with rfl | hk
    · exact ha
    · exact Finset.mem_singleton.mp hk ▸ hb
  · rw [Finset.sum_pair hne, Finset.sum_pair hne, hpair]
  · intro k hk
    simp only [Finset.mem_insert, Finset.mem_singleton, not_or] at hk
    exact hframe k hk.1 hk.2

/-- One holder may change in a way that keeps its own share. -/
theorem sum_eq_of_kept {a : κ} (hkept : g a = f a) (hframe : ∀ k, k ≠ a → g k = f k) :
    ∑ k ∈ S, g k = ∑ k ∈ S, f k := by
  apply Finset.sum_congr rfl
  intro k _
  by_cases hk : k = a
  · exact hk ▸ hkept
  · exact hframe k hk

end Totals
