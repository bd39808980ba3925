import Mathlib.Data.List.Induction

/-! # Runs of steps that may fail

A step is a method on mutable state: it reports success or an error, and leaves a state in
both cases. -/

namespace Attempts

universe u

variable {ε σ α β ι : Type u}

/-! ## Computations that change nothing -/

/-- The computation leaves the state as it was, whatever it reports. -/
def Reads (x : EStateM ε σ α) : Prop :=
  ∀ s, (∃ a, x s = .ok a s) ∨ ∃ e, x s = .error e s

/-- A failure leaves the state as it was. -/
def Atomic (x : EStateM ε σ α) : Prop := ∀ s e s', x s = .error e s' → s' = s

theorem atomic_modify (f : σ → σ) : Atomic (modify f : EStateM ε σ PUnit) := by
  intro s e s' h
  cases h

/-- Reading the state first keeps a computation atomic. -/
theorem atomic_get_bind {f : σ → EStateM ε σ β} (hf : ∀ s, Atomic (f s)) :
    Atomic (get >>= f) := by
  intro s e s' h
  exact hf s s e s' h

/-- A fallible value stops the computation with nothing changed, or hands over its value. -/
theorem atomic_ofExcept_bind {x : Except ε α} {f : α → EStateM ε σ β} :
    Atomic (ofExcept x >>= f) ↔ ∀ a, x = .ok a → Atomic (f a) := by
  cases x with
  | error e =>
      constructor
      · intro _ a ha
        cases ha
      · intro _ s e' s' h
        cases h
        rfl
  | ok a =>
      have hrest : (ofExcept (Except.ok a) >>= f : EStateM ε σ β) = f a := rfl
      simp [hrest]

/-! ## Inversion -/

theorem get_bind (f : σ → EStateM ε σ β) (s : σ) : (get >>= f) s = f s s := rfl

theorem get_bind_ok {f : σ → EStateM ε σ β} {s s' : σ} {b : β} :
    (get >>= f) s = .ok b s' ↔ f s s = .ok b s' := Iff.rfl

theorem ofExcept_bind_ok {x : Except ε α} {f : α → EStateM ε σ β} {s s' : σ} {b : β} :
    (ofExcept x >>= f) s = .ok b s' ↔ ∃ a, x = .ok a ∧ f a s = .ok b s' := by
  cases x with
  | error e =>
      have hstop : (ofExcept (Except.error e) >>= f) s = .error e s := rfl
      simp [hstop]
  | ok a =>
      have hrest : (ofExcept (Except.ok a) >>= f) s = f a s := rfl
      simp [hrest]

theorem modify_ok {f : σ → σ} {s s' : σ} {u : PUnit} :
    (modify f : EStateM ε σ PUnit) s = .ok u s' ↔ s' = f s := by
  constructor
  · intro h
    injection h with _ hs
    exact hs.symm
  · rintro rfl
    rfl

/-! ## Runs -/

def finalState : EStateM.Result ε σ α → σ
  | .ok _ s => s
  | .error _ s => s

/-- A step that reports a value ends in `finalState`. -/
theorem eq_ok_of_run' {x : EStateM ε σ α} {s : σ} {a : α} (h : x.run' s = some a) :
    x s = .ok a (finalState (x s)) := by
  unfold EStateM.run' EStateM.run at h
  cases hx : x s with
  | ok b s' =>
      rw [hx] at h
      rw [finalState, Option.some.inj h]
  | error e s' =>
      rw [hx] at h
      cases h

/-- The state after every step was attempted once, in order. -/
def run (step : ι → EStateM ε σ PUnit) (inputs : List ι) (s : σ) : σ :=
  inputs.foldl (fun s a => finalState (step a s)) s

variable {step : ι → EStateM ε σ PUnit}

@[simp] theorem run_nil (s : σ) : run step [] s = s := rfl

theorem run_concat (front : List ι) (a : ι) (s : σ) :
    run step (front ++ [a]) s = finalState (step a (run step front s)) := by
  simp [run]

/-- A property every successful step keeps holds of every state reached. -/
theorem run_invariant (P : σ → Prop) (hatomic : ∀ a, Atomic (step a))
    (hstep : ∀ a s s', P s → step a s = .ok ⟨⟩ s' → P s') (inputs : List ι) {s : σ}
    (hs : P s) : P (run step inputs s) := by
  induction inputs using List.reverseRecOn with
  | nil => exact hs
  | append_singleton front a ih =>
      rw [run_concat]
      cases hresult : step a (run step front s) with
      | ok u s' => exact hstep a _ _ ih hresult
      | error e s' =>
          rw [finalState, hatomic a _ e s' hresult]
          exact ih

/-- `a` is the last input whose step succeeded: it led to the final state, and every later
step failed in that state. -/
structure LastSuccess (step : ι → EStateM ε σ PUnit) (inputs : List ι) (s : σ)
    (before : List ι) (a : ι) (after : List ι) : Prop where
  inputs_eq : inputs = before ++ a :: after
  succeeded : step a (run step before s) = .ok ⟨⟩ (run step inputs s)
  failed : ∀ b ∈ after, ∃ e, step b (run step inputs s) = .error e (run step inputs s)

/-- A run of atomic steps never left its start, or it has a last success. -/
theorem run_cases (hatomic : ∀ a, Atomic (step a)) (inputs : List ι) (s : σ) :
    run step inputs s = s ∨ ∃ before a after, LastSuccess step inputs s before a after := by
  induction inputs using List.reverseRecOn with
  | nil => exact .inl rfl
  | append_singleton front b ih =>
      cases hresult : step b (run step front s) with
      | ok u s' =>
          refine .inr ⟨front, b, [], rfl, ?_, by simp⟩
          rw [run_concat, hresult, finalState]
      | error e s' =>
          have hsame : run step (front ++ [b]) s = run step front s := by
            rw [run_concat, hresult, finalState, hatomic b _ e s' hresult]
          rcases ih with hstart | ⟨before, a, after, hlast⟩
          · exact .inl (hsame.trans hstart)
          · refine .inr ⟨before, a, after ++ [b], ?_, ?_, ?_⟩
            · rw [hlast.inputs_eq, List.append_assoc, List.cons_append]
            · rw [hsame]
              exact hlast.succeeded
            · intro c hc
              rw [hsame]
              rcases List.mem_append.mp hc with hafter | hb
              · exact hlast.failed c hafter
              · obtain rfl := List.mem_singleton.mp hb
                rw [hatomic _ _ e s' hresult] at hresult
                exact ⟨e, hresult⟩

end Attempts
