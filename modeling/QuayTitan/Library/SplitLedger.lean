import Mathlib.Algebra.GroupWithZero.Nat
import Mathlib.Algebra.Order.Group.Nat
import Mathlib.Data.List.Basic
import Mathlib.Logic.Function.Basic

/-! # Ledgers of successive splits

A split takes a share of what its source holds at that moment and credits its target
with an amount of its own. Sources and targets may repeat, coincide and form cycles. -/

namespace SplitLedger

structure Leg (κ : Type*) where
  source : κ
  target : κ
  share : ℕ → ℕ
  share_le : ∀ n, share n ≤ n
  credit : ℕ

variable {κ : Type*}

/-- What the leg takes from the ledger. -/
def Leg.input (leg : Leg κ) (held : κ → ℕ) : ℕ := leg.share (held leg.source)

theorem Leg.input_le (leg : Leg κ) (held : κ → ℕ) : leg.input held ≤ held leg.source :=
  leg.share_le _

variable [DecidableEq κ]

def Leg.apply (leg : Leg κ) (held : κ → ℕ) (key : κ) : ℕ :=
  held key - (if key = leg.source then leg.input held else 0) +
    (if key = leg.target then leg.credit else 0)

def Leg.mentions (leg : Leg κ) (key : κ) : Bool := key = leg.source || key = leg.target

def run (legs : List (Leg κ)) (held : κ → ℕ) : κ → ℕ :=
  legs.foldl (fun held leg => leg.apply held) held

@[simp] theorem run_nil (held : κ → ℕ) : run [] held = held := rfl

@[simp] theorem run_cons (leg : Leg κ) (legs : List (Leg κ)) (held : κ → ℕ) :
    run (leg :: legs) held = run legs (leg.apply held) := rfl

theorem run_append (legs legs' : List (Leg κ)) (held : κ → ℕ) :
    run (legs ++ legs') held = run legs' (run legs held) :=
  List.foldl_append

theorem Leg.apply_of_not_mentions {leg : Leg κ} {key : κ} (held : κ → ℕ)
    (h : leg.mentions key = false) : leg.apply held key = held key := by
  simp only [mentions, Bool.or_eq_false_iff, decide_eq_false_iff_not] at h
  simp [apply, h.1, h.2]

/-! ## Balance -/

/-- The inputs a run takes from an entry, in total. -/
def spent : List (Leg κ) → (κ → ℕ) → κ → ℕ
  | [], _, _ => 0
  | leg :: legs, held, key =>
      (if key = leg.source then leg.input held else 0) + spent legs (leg.apply held) key

theorem spent_append (legs legs' : List (Leg κ)) (held : κ → ℕ) (key : κ) :
    spent (legs ++ legs') held key = spent legs held key + spent legs' (run legs held) key := by
  induction legs generalizing held with
  | nil => simp [spent]
  | cons leg legs ih => simp only [List.cons_append, spent, ih, run_cons, Nat.add_assoc]

/-- The credits a run makes to an entry, in total. -/
def received (legs : List (Leg κ)) (key : κ) : ℕ :=
  (legs.map fun leg => if key = leg.target then leg.credit else 0).sum

theorem Leg.apply_add_input (leg : Leg κ) (held : κ → ℕ) (key : κ) :
    leg.apply held key + (if key = leg.source then leg.input held else 0) =
      held key + (if key = leg.target then leg.credit else 0) := by
  have hle := leg.input_le held
  unfold apply
  by_cases hsource : key = leg.source
  · subst hsource
    rw [if_pos rfl]
    omega
  · simp [hsource]

/-- Nothing is lost or created: what an entry ends with and what was taken from it make up
what it started with and what it was credited. -/
theorem run_add_spent (legs : List (Leg κ)) (held : κ → ℕ) (key : κ) :
    run legs held key + spent legs held key = held key + received legs key := by
  induction legs generalizing held with
  | nil => simp [spent, received]
  | cons leg legs ih =>
      have hstep := leg.apply_add_input held key
      have hrest := ih (leg.apply held)
      simp only [run_cons, spent, received, List.map_cons, List.sum_cons] at hrest ⊢
      omega

/-! ## Entries that end empty -/

theorem run_of_not_mentions {legs : List (Leg κ)} {key : κ} (held : κ → ℕ)
    (h : ∀ leg ∈ legs, leg.mentions key = false) : run legs held key = held key := by
  induction legs generalizing held with
  | nil => rfl
  | cons leg legs ih =>
      rw [run_cons, ih _ fun other hother => h other (List.mem_cons_of_mem _ hother),
        leg.apply_of_not_mentions _ (h leg (by simp))]

/-- An empty entry that is never a target stays empty. -/
theorem run_of_not_target {legs : List (Leg κ)} {key : κ} {held : κ → ℕ}
    (hheld : held key = 0) (h : ∀ leg ∈ legs, key ≠ leg.target) : run legs held key = 0 := by
  induction legs generalizing held with
  | nil => exact hheld
  | cons leg legs ih =>
      refine ih ?_ fun other hother => h other (List.mem_cons_of_mem _ hother)
      simp [Leg.apply, h leg (by simp), hheld]

/-- The last leg that mentions an entry. -/
def lastMention (legs : List (Leg κ)) (key : κ) : Option (Leg κ) :=
  legs.reverse.find? fun leg => leg.mentions key

/-- An entry is empty once the last leg that mentions it takes all it holds. -/
theorem run_of_drained {legs : List (Leg κ)} {key : κ} {leg : Leg κ} (held : κ → ℕ)
    (hlast : lastMention legs key = some leg) (hsource : key = leg.source)
    (htarget : key ≠ leg.target) (hall : ∀ n, leg.share n = n) : run legs held key = 0 := by
  obtain ⟨_, later, earlier, hsplit, hlater⟩ := List.find?_eq_some_iff_append.mp hlast
  have hlegs : legs = earlier.reverse ++ (leg :: later.reverse) := by
    have hreversed := congrArg List.reverse hsplit
    simpa using hreversed
  rw [hlegs, run_append, run_cons, run_of_not_mentions]
  · rw [Leg.apply, if_pos hsource, if_neg htarget, Leg.input, hall, ← hsource]
    omega
  · intro other hother
    simpa using hlater other (by simpa using hother)

/-! ## Chains -/

/-- What each leg of a run takes. -/
def inputs : List (Leg κ) → (κ → ℕ) → List ℕ
  | [], _ => []
  | leg :: legs, held => leg.input held :: inputs legs (leg.apply held)

theorem inputs_append (legs legs' : List (Leg κ)) (held : κ → ℕ) :
    inputs (legs ++ legs') held = inputs legs held ++ inputs legs' (run legs held) := by
  induction legs generalizing held with
  | nil => rfl
  | cons leg legs ih => simp only [List.cons_append, inputs, ih, run_cons]

/-- Each leg starts from the entry the one before it ended in. -/
inductive Chained : κ → List (Leg κ) → κ → Prop
  | nil (key : κ) : Chained key [] key
  | cons (leg : Leg κ) {legs : List (Leg κ)} {finish : κ} (tail : Chained leg.target legs finish) :
      Chained leg.source (leg :: legs) finish

/-- A ledger with one entry. -/
def only (key : κ) (amount : ℕ) (other : κ) : ℕ := if other = key then amount else 0

theorem Leg.apply_only {leg : Leg κ} (hne : leg.source ≠ leg.target)
    (hall : ∀ n, leg.share n = n) (amount : ℕ) :
    leg.apply (only leg.source amount) = only leg.target leg.credit := by
  funext key
  simp only [apply, input, only, hall]
  by_cases hsource : key = leg.source
  · subst hsource
    simp [hne]
  · simp [hsource]

/-- Along a chain of full shares every leg takes the credit of the leg before it, and the
last credit stays. -/
theorem inputs_of_chained {legs : List (Leg κ)} {start finish : κ}
    (hchained : Chained start legs finish) (hne : ∀ leg ∈ legs, leg.source ≠ leg.target)
    (hall : ∀ leg ∈ legs, ∀ n, leg.share n = n) (amount : ℕ) :
    inputs legs (only start amount) ++ [run legs (only start amount) finish] =
      amount :: legs.map Leg.credit := by
  induction hchained generalizing amount with
  | nil key => simp [inputs, only]
  | cons leg tail ih =>
      have hhead := hall leg List.mem_cons_self
      have htail := ih (fun other hother => hne other (List.mem_cons_of_mem _ hother))
        (fun other hother => hall other (List.mem_cons_of_mem _ hother)) leg.credit
      rw [inputs, run_cons, leg.apply_only (hne leg List.mem_cons_self) hhead,
        List.cons_append, htail, Leg.input, hhead, only, if_pos rfl, List.map_cons]

end SplitLedger
