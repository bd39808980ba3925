import Mathlib.Order.Basic

/-! # Computations that stop at their first error

Inversion of the `Except` monad and the invariant rules of its loops. -/

namespace Fallible

universe u v

variable {ε : Type u} {α β σ : Type v}

theorem pure_eq_ok {a b : α} : (pure a : Except ε α) = .ok b ↔ a = b :=
  ⟨Except.ok.inj, congrArg Except.ok⟩

@[simp] theorem pure_ne_error {a : α} {e : ε} : (pure a : Except ε α) ≠ .error e :=
  fun h => by cases h

@[simp] theorem ok_bind (a : α) (f : α → Except ε β) : (Except.ok a >>= f) = f a := rfl

@[simp] theorem error_bind (e : ε) (f : α → Except ε β) :
    ((Except.error e : Except ε α) >>= f) = .error e := rfl

theorem bind_eq_ok {x : Except ε α} {f : α → Except ε β} {b : β} :
    (x >>= f) = .ok b ↔ ∃ a, x = .ok a ∧ f a = .ok b := by
  cases x with
  | error e => simp
  | ok a => simp

theorem bind_eq_error {x : Except ε α} {f : α → Except ε β} {e : ε} :
    (x >>= f) = .error e ↔ x = .error e ∨ ∃ a, x = .ok a ∧ f a = .error e := by
  cases x with
  | error e => simp
  | ok a => simp

/-- A sequence avoids an error when both of its parts do. -/
theorem bind_ne_error {x : Except ε α} {f : α → Except ε β} {e : ε} (hx : x ≠ .error e)
    (hf : ∀ a, x = .ok a → f a ≠ .error e) : (x >>= f) ≠ .error e := by
  intro h
  rcases bind_eq_error.mp h with herror | ⟨a, ha, herror⟩
  · exact hx herror
  · exact hf a ha herror

theorem map_eq_ok {x : Except ε α} {f : α → β} {b : β} :
    x.map f = .ok b ↔ ∃ a, x = .ok a ∧ f a = b := by
  cases x with
  | error e => simp [Except.map]
  | ok a => simp [Except.map]

theorem mapError_eq_ok {ε' : Type u} {x : Except ε α} {f : ε → ε'} {a : α} :
    x.mapError f = .ok a ↔ x = .ok a := by
  cases x with
  | error e => simp [Except.mapError]
  | ok b => simp [Except.mapError]

theorem exists_of_isOk {x : Except ε α} (h : x.isOk = true) : ∃ a, x = .ok a := by
  cases x with
  | error e => cases h
  | ok a => exact ⟨a, rfl⟩

theorem exists_of_toOption_map {x : Except ε α} {f : α → β} {b : β}
    (h : x.toOption.map f = some b) : ∃ a, x = .ok a ∧ f a = b := by
  cases x with
  | error e => cases h
  | ok a => exact ⟨a, rfl, Option.some.inj h⟩

/-! ## Loops -/

/-- A property every iteration keeps holds when the loop ends. -/
theorem foldlM_invariant {f : σ → α → Except ε σ} (P : σ → Prop) {l : List α} {s t : σ}
    (hstep : ∀ a ∈ l, ∀ s t, P s → f s a = .ok t → P t) (hs : P s)
    (h : l.foldlM f s = .ok t) : P t := by
  induction l generalizing s with
  | nil =>
      rw [List.foldlM_nil, pure_eq_ok] at h
      exact h ▸ hs
  | cons a l ih =>
      rw [List.foldlM_cons] at h
      obtain ⟨s', hhead, htail⟩ := bind_eq_ok.mp h
      exact ih (fun b hb => hstep b (List.mem_cons_of_mem a hb))
        (hstep a (by simp) s s' hs hhead) htail

/-- A counting loop, with the counter in its invariant. -/
theorem foldlM_range_invariant {f : σ → ℕ → Except ε σ} (P : ℕ → σ → Prop) {n : ℕ} {s t : σ}
    (hstep : ∀ i < n, ∀ s t, P i s → f s i = .ok t → P (i + 1) t) (hs : P 0 s)
    (h : (List.range n).foldlM f s = .ok t) : P n t := by
  induction n generalizing t with
  | zero =>
      rw [List.range_zero, List.foldlM_nil, pure_eq_ok] at h
      exact h ▸ hs
  | succ n ih =>
      rw [List.range_succ, List.foldlM_append] at h
      obtain ⟨s', hinit, hlast⟩ := bind_eq_ok.mp h
      rw [List.foldlM_cons] at hlast
      obtain ⟨t', hstep', hend⟩ := bind_eq_ok.mp hlast
      rw [List.foldlM_nil, pure_eq_ok] at hend
      subst hend
      exact hstep n (by omega) s' t' (ih (fun i hi => hstep i (by omega)) hinit) hstep'

/-- A counting loop succeeds when no iteration fails from a state of its invariant. -/
theorem foldlM_range_ok {f : σ → ℕ → Except ε σ} (P : ℕ → σ → Prop) {n : ℕ} {s : σ}
    (hstep : ∀ i < n, ∀ s, P i s → ∃ t, f s i = .ok t ∧ P (i + 1) t) (hs : P 0 s) :
    ∃ t, (List.range n).foldlM f s = .ok t ∧ P n t := by
  induction n with
  | zero => exact ⟨s, rfl, hs⟩
  | succ n ih =>
      obtain ⟨mid, hinit, hmid⟩ := ih fun i hi => hstep i (by omega)
      obtain ⟨t, hlast, ht⟩ := hstep n (by omega) mid hmid
      refine ⟨t, ?_, ht⟩
      rw [List.range_succ, List.foldlM_append, hinit, ok_bind, List.foldlM_cons, hlast, ok_bind,
        List.foldlM_nil]
      rfl

/-- A loop avoids an error that no iteration raises from a state of its invariant. -/
theorem foldlM_ne_error {f : σ → α → Except ε σ} (P : σ → Prop) {l : List α} {s : σ} {e : ε}
    (hstep : ∀ a ∈ l, ∀ s t, P s → f s a = .ok t → P t)
    (hsafe : ∀ a ∈ l, ∀ s, P s → f s a ≠ .error e) (hs : P s) :
    l.foldlM f s ≠ .error e := by
  induction l generalizing s with
  | nil => simp
  | cons a l ih =>
      rw [List.foldlM_cons]
      refine bind_ne_error (hsafe a (by simp) s hs) fun s' hs' => ?_
      exact ih (fun b hb => hstep b (List.mem_cons_of_mem a hb))
        (fun b hb => hsafe b (List.mem_cons_of_mem a hb)) (hstep a (by simp) s s' hs hs')

end Fallible
