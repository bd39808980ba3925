import Mathlib.Logic.Function.Basic

/-! # Maps written entry by entry -/

namespace Assignments

/-- A zip reaches as far as the shorter list. -/
theorem map_fst_zip_eq_take {α β : Type*} (xs : List α) (ys : List β) :
    (xs.zip ys).map Prod.fst = xs.take ys.length := by
  induction xs generalizing ys with
  | nil => simp
  | cons x xs ih =>
      cases ys with
      | nil => simp
      | cons y ys => simp [ih]

variable {κ ν : Type*} [DecidableEq κ]

/-- The map after each pair was stored, in order. -/
def assign (m : κ → Option ν) (pairs : List (κ × ν)) : κ → Option ν :=
  pairs.foldl (fun m pair => Function.update m pair.1 (some pair.2)) m

@[simp] theorem assign_nil (m : κ → Option ν) : assign m [] = m := rfl

theorem assign_cons (m : κ → Option ν) (pair : κ × ν) (pairs : List (κ × ν)) :
    assign m (pair :: pairs) = assign (Function.update m pair.1 (some pair.2)) pairs := rfl

/-- A key that is not written keeps its entry. -/
theorem assign_of_not_mem {m : κ → Option ν} {pairs : List (κ × ν)} {key : κ}
    (h : ∀ pair ∈ pairs, pair.1 ≠ key) : assign m pairs key = m key := by
  induction pairs generalizing m with
  | nil => rfl
  | cons pair pairs ih =>
      rw [assign_cons, ih fun other hother => h other (List.mem_cons_of_mem _ hother),
        Function.update_of_ne (h pair (by simp)).symm]

/-- What a written key holds does not depend on the map before. -/
theorem assign_congr {m m' : κ → Option ν} {pairs : List (κ × ν)} {key : κ}
    (h : ∃ pair ∈ pairs, pair.1 = key) : assign m pairs key = assign m' pairs key := by
  induction pairs generalizing m m' with
  | nil => simp at h
  | cons pair pairs ih =>
      rw [assign_cons, assign_cons]
      by_cases hrest : ∃ other ∈ pairs, other.1 = key
      · exact ih hrest
      · have hnot : ∀ other ∈ pairs, other.1 ≠ key :=
          fun other hother heq => hrest ⟨other, hother, heq⟩
        obtain ⟨other, hother, rfl⟩ := h
        rcases List.mem_cons.mp hother with rfl | hmem
        · rw [assign_of_not_mem hnot, assign_of_not_mem hnot, Function.update_self,
            Function.update_self]
        · exact absurd rfl (hnot other hmem)

/-- A key that is written holds one of the values written for it. -/
theorem exists_assign_of_mem {m : κ → Option ν} {pairs : List (κ × ν)} {key : κ}
    (h : key ∈ pairs.map Prod.fst) :
    ∃ value, (key, value) ∈ pairs ∧ assign m pairs key = some value := by
  induction pairs generalizing m with
  | nil => simp at h
  | cons pair pairs ih =>
      by_cases hlater : key ∈ pairs.map Prod.fst
      · obtain ⟨value, hmem, hassign⟩ := @ih (Function.update m pair.1 (some pair.2)) hlater
        exact ⟨value, List.mem_cons_of_mem _ hmem, hassign⟩
      · rw [List.map_cons, List.mem_cons, or_iff_left hlater] at h
        subst h
        refine ⟨pair.2, .head _, ?_⟩
        rw [assign_cons, assign_of_not_mem, Function.update_self]
        intro other hother heq
        exact hlater (heq ▸ List.mem_map_of_mem hother)

/-- Lists of keys and values that agree on repeated keys are read off by position. -/
theorem assign_zip {m : κ → Option ν} {keys : List κ} {values : List ν}
    (hlength : values.length = keys.length)
    (hconsistent : ∀ i j : Nat, keys[i]? = keys[j]? → values[i]? = values[j]?) {key : κ} {j : Nat}
    (hkey : keys[j]? = some key) : assign m (keys.zip values) key = values[j]? := by
  have hmem : key ∈ (keys.zip values).map Prod.fst := by
    rw [map_fst_zip_eq_take, hlength, List.take_length]
    exact List.mem_of_getElem? hkey
  obtain ⟨value, hpair, hassign⟩ := @exists_assign_of_mem _ _ _ m _ _ hmem
  obtain ⟨i, hi⟩ := List.mem_iff_getElem?.mp hpair
  obtain ⟨hkeyi, hvalue⟩ := List.getElem?_zip_eq_some.mp hi
  rw [hassign, hconsistent j i (hkey.trans hkeyi.symm), hvalue]

/-- Values that depend only on their key are found under it. -/
theorem assign_graph (m : κ → Option ν) (f : κ → ν) (keys : List κ) (key : κ) :
    assign m (keys.map fun key => (key, f key)) key =
      if key ∈ keys then some (f key) else m key := by
  induction keys generalizing m with
  | nil => simp
  | cons head rest ih =>
      rw [List.map_cons, assign_cons, ih]
      by_cases hrest : key ∈ rest
      · rw [if_pos hrest, if_pos (List.mem_cons_of_mem _ hrest)]
      · by_cases hhead : key = head
        · subst hhead
          simp [hrest]
        · simp [hrest, hhead]

end Assignments
