import Mathlib.Data.List.Basic

/-! Computations that stop at the first fault. What can be wrong is listed in the order in which it
is looked at; the first entry is the error, and without any there is a value. -/

namespace Cartograph

variable {ε η α β γ : Type}

/-- The result is the first of some faults, or a value with a property where there are none. -/
def Outcome (faults : List ε) (good : α → Prop) : Except ε α → Prop
  | .error fault => faults.head? = some fault
  | .ok value => faults = [] ∧ good value

namespace Outcome

variable {faults : List ε} {good : α → Prop} {result : Except ε α}

theorem ok (value : α) (holds : good value) : Outcome ([] : List ε) good (.ok value) :=
  ⟨rfl, holds⟩

theorem bind (first : Outcome faults good result) (others : List ε) (fine : β → Prop)
    (next : α → Except ε β) (rest : ∀ value, good value → Outcome others fine (next value)) :
    Outcome (faults ++ others) fine (result >>= next) := by
  cases result with
  | error fault =>
    have head : faults.head? = some fault := first
    change (faults ++ others).head? = some fault
    rw [List.head?_append, head]
    rfl
  | ok value =>
    obtain ⟨rfl, holds⟩ := first
    exact rest value holds

theorem map (first : Outcome faults good result) (fine : β → Prop) (change : α → β)
    (kept : ∀ value, good value → fine (change value)) :
    Outcome faults fine (result.map change) := by
  cases result with
  | error => exact first
  | ok value => exact ⟨first.1, kept value first.2⟩

theorem mapError (first : Outcome faults good result) (rename : ε → η) :
    Outcome (faults.map rename) good (result.mapError rename) := by
  cases result with
  | error fault =>
    have head : faults.head? = some fault := first
    change (faults.map rename).head? = some (rename fault)
    rw [List.head?_map, head]
    rfl
  | ok value => exact ⟨by rw [first.1, List.map_nil], first.2⟩

theorem mapM (entryFaults : α → List ε) (meets : α → β → Prop) (load : α → Except ε β)
    (each : ∀ entry, Outcome (entryFaults entry) (meets entry) (load entry)) (entries : List α) :
    Outcome (entries.flatMap entryFaults) (List.Forall₂ meets entries) (entries.mapM load) := by
  induction entries with
  | nil => exact ok [] .nil
  | cons entry rest ih =>
    rw [List.mapM_cons, List.flatMap_cons]
    refine (each entry).bind _ _ _ fun value first => ?_
    rw [← List.append_nil (rest.flatMap entryFaults)]
    exact ih.bind _ _ _ fun values others => ok _ (.cons first others)

theorem mapM_option (entryFaults : α → List ε) (meets : α → β → Prop) (load : α → Except ε β)
    (each : ∀ entry, Outcome (entryFaults entry) (meets entry) (load entry)) (entry : Option α) :
    Outcome (entry.toList.flatMap entryFaults) (Option.Rel meets entry) (entry.mapM load) := by
  cases entry with
  | none => exact ok none .none
  | some entry =>
    rw [Option.toList_some, List.flatMap_singleton]
    exact (each entry).map _ _ fun _ loaded => .some loaded

theorem value_iff (outcome : Outcome faults good result) :
    (∃ value, result = .ok value) ↔ faults = [] := by
  cases result with
  | error fault =>
    have head : faults.head? = some fault := outcome
    constructor
    · rintro ⟨value, same⟩
      cases same
    · rintro rfl
      cases head
  | ok value => exact iff_of_true ⟨value, rfl⟩ outcome.1

theorem error_iff (outcome : Outcome faults good result) (fault : ε) :
    result = .error fault ↔ faults.head? = some fault := by
  cases result with
  | error other =>
    have head : faults.head? = some other := outcome
    rw [head, Except.error.injEq, Option.some.injEq]
  | ok value =>
    rw [outcome.1]
    exact iff_of_false nofun nofun

theorem good_of_ok (outcome : Outcome faults good result) (value : α)
    (loaded : result = .ok value) : good value := by
  subst loaded
  exact outcome.2

end Outcome

end Cartograph
