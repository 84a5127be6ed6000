import Cartograph.Path.Pen

/-! The events of a path fall into contours. A contour begins with a move, every other event
lies in an open one, and a close comes right after the line back to where its contour began. -/

namespace Cartograph.Contour

variable {α : Type}

def isClose : PenEvent α → Bool
  | .close => true
  | _ => false

def moveTarget? : PenEvent α → Option (Point α)
  | .move p => some p
  | _ => none

def sinceClose (history : List (PenEvent α)) : List (PenEvent α) :=
  (history.reverse.takeWhile (!isClose ·)).reverse

/-- Where the first move since the last close went, if there was one. -/
def beginning? (history : List (PenEvent α)) : Option (Point α) :=
  (sinceClose history).findSome? moveTarget?

@[simp] theorem beginning_close (history : List (PenEvent α)) :
    beginning? (history ++ [.close]) = none := by
  simp [beginning?, sinceClose, isClose]

theorem beginning_other (history : List (PenEvent α)) (event : PenEvent α)
    (other : isClose event = false) :
    beginning? (history ++ [event]) = (beginning? history).or (moveTarget? event) := by
  simp [beginning?, sinceClose, other]

def Follows (history : List (PenEvent α)) : PenEvent α → Prop
  | .move _ => True
  | .line _ | .curve _ _ _ => ∃ p, beginning? history = some p
  | .close => ∃ p, beginning? history = some p ∧ history.getLast? = some (.line p)

def Ordered : List (PenEvent α) → List (PenEvent α) → Prop
  | _, [] => True
  | history, event :: rest => Follows history event ∧ Ordered (history ++ [event]) rest

theorem ordered_append (history first second : List (PenEvent α)) :
    Ordered history (first ++ second) ↔
      Ordered history first ∧ Ordered (history ++ first) second := by
  induction first generalizing history with
  | nil => simp [Ordered]
  | cons event rest ih => simp [Ordered, ih, and_assoc]

/-- The pen knows of the past only whether a contour is open, and where that one began. -/
def Remembers (history : List (PenEvent α)) : Pen α → Prop
  | .lifted _ => beginning? history = none
  | .drawing start _ => beginning? history = some start

def Continues (history : List (PenEvent α)) (result : Pen α × List (PenEvent α)) : Prop :=
  Ordered history result.2 ∧ Remembers (history ++ result.2) result.1

theorem continues_moveTo (history : List (PenEvent α)) (pen : Pen α) (target : Point α)
    (known : Remembers history pen) : Continues history (pen.moveTo target) := by
  have later := beginning_other history (.move target) rfl
  cases pen with
  | lifted p =>
    rw [show beginning? history = none from known] at later
    exact ⟨⟨trivial, trivial⟩, later⟩
  | drawing start p =>
    rw [show beginning? history = some start from known] at later
    exact ⟨⟨trivial, trivial⟩, later⟩

theorem continues_draw (history : List (PenEvent α)) (pen : Pen α) (target : Point α)
    (event : PenEvent α) (allowed : ∀ past p, beginning? past = some p → Follows past event)
    (other : isClose event = false) (known : Remembers history pen) :
    Continues history (pen.draw target event) := by
  cases pen with
  | lifted p =>
    have opened : beginning? (history ++ [.move p]) = some p := by
      rw [beginning_other history _ rfl, show beginning? history = none from known]
      rfl
    refine ⟨⟨trivial, allowed _ p opened, trivial⟩, ?_⟩
    change beginning? (history ++ ([.move p] ++ [event])) = some p
    rw [← List.append_assoc, beginning_other _ _ other, opened]
    rfl
  | drawing start p =>
    have opened : beginning? history = some start := known
    refine ⟨⟨allowed _ start opened, trivial⟩, ?_⟩
    change beginning? (history ++ [event]) = some start
    rw [beginning_other _ _ other, opened]
    rfl

theorem continues_lineTo (history : List (PenEvent α)) (pen : Pen α) (target : Point α)
    (known : Remembers history pen) : Continues history (pen.lineTo target) :=
  continues_draw history pen target _ (fun _ p opened => ⟨p, opened⟩) rfl known

theorem continues_closed (history : List (PenEvent α)) (pen : Pen α)
    (known : Remembers history pen) : Continues history pen.closed := by
  cases pen with
  | lifted p =>
    refine ⟨trivial, ?_⟩
    simpa only [Pen.closed, List.append_nil] using known
  | drawing start p =>
    have opened : beginning? history = some start := known
    have back : beginning? (history ++ [.line start]) = some start := by
      rw [beginning_other _ _ rfl, opened]
      rfl
    refine ⟨⟨⟨start, opened⟩, ⟨start, back, by simp⟩, trivial⟩, ?_⟩
    change beginning? (history ++ ([.line start] ++ [.close])) = none
    rw [← List.append_assoc]
    exact beginning_close _

section Run

variable [Add α] [OfNat α 0]

theorem continues_step (history : List (PenEvent α)) (pen : Pen α) (command : Command α)
    (known : Remembers history pen) : Continues history (pen.step command) := by
  cases command with
  | move p mode => exact continues_moveTo history pen _ known
  | line p mode => exact continues_lineTo history pen _ known
  | curve p q r mode =>
    exact continues_draw history pen _ _ (fun _ p opened => ⟨p, opened⟩) rfl known
  | horizontal x mode => cases mode <;> exact continues_lineTo history pen _ known
  | vertical y mode => cases mode <;> exact continues_lineTo history pen _ known
  | close => exact continues_closed history pen known

theorem ordered_run (history : List (PenEvent α)) (pen : Pen α) (path : List (Command α))
    (known : Remembers history pen) : Ordered history (pen.run path) := by
  induction path generalizing history pen with
  | nil => trivial
  | cons command rest ih =>
    obtain ⟨ordered, knows⟩ := continues_step history pen command known
    exact (ordered_append history _ _).mpr ⟨ordered, ih _ _ knows⟩

theorem follows_of_events (path : List (Command α)) (before after : List (PenEvent α))
    (event : PenEvent α) (place : Path.events path = before ++ event :: after) :
    Follows before event := by
  have ordered := ordered_run [] (Pen.lifted Point.origin) path rfl
  change Ordered [] (Path.events path) at ordered
  rw [place, ordered_append] at ordered
  exact ordered.2.1

/-- A later move inside a contour does not change the place to which its close returns. -/
theorem events_form_contours (path : List (Command α)) (before after : List (PenEvent α))
    (event : PenEvent α) (place : Path.events path = before ++ event :: after) :
    (before = [] ∨ before.getLast? = some .close → ∃ p, event = .move p) ∧
    ((∀ p, event ≠ .move p) → ∃ p, beginning? before = some p) ∧
    (event = .close → ∃ p, before.getLast? = some (.line p) ∧ beginning? before = some p) := by
  have follows := follows_of_events path before after event place
  have opened : (∀ p, event ≠ .move p) → ∃ p, beginning? before = some p := by
    intro other
    cases event with
    | move p => exact absurd rfl (other p)
    | line p => exact follows
    | curve p q r => exact follows
    | close => exact ⟨follows.choose, follows.choose_spec.1⟩
  refine ⟨fun fresh => ?_, opened, ?_⟩
  · have none_open : beginning? before = none := by
      rcases fresh with rfl | last
      · rfl
      · obtain ⟨earlier, rfl⟩ := List.getLast?_eq_some_iff.mp last
        exact beginning_close earlier
    refine Classical.byContradiction fun other => ?_
    obtain ⟨p, some_open⟩ := opened fun p same => other ⟨p, same⟩
    rw [none_open] at some_open
    cases some_open
  · rintro rfl
    obtain ⟨p, began, last⟩ := follows
    exact ⟨p, last, began⟩

end Run

theorem second_move_keeps_beginning :
    Path.events [.move ⟨0, 0⟩ .absolute, .line ⟨5, 0⟩ .absolute, .move ⟨20, 20⟩ .absolute,
      .line ⟨30, 30⟩ .absolute, .close] =
      ([.move ⟨0, 0⟩, .line ⟨5, 0⟩, .move ⟨20, 20⟩, .line ⟨30, 30⟩, .line ⟨0, 0⟩, .close] :
        List (PenEvent Float)) ∧
    ∃ p : Point Float, ([.move ⟨0, 0⟩, .line ⟨5, 0⟩, .move ⟨20, 20⟩, .line ⟨30, 30⟩,
      .line ⟨0, 0⟩] : List (PenEvent Float)).getLast? = some (.line p) ∧
      beginning? [.move ⟨0, 0⟩, .line ⟨5, 0⟩, .move ⟨20, 20⟩, .line ⟨30, 30⟩, .line ⟨0, 0⟩] =
        some p := by
  refine ⟨rfl, ?_⟩
  exact (events_form_contours [.move ⟨0, 0⟩ .absolute, .line ⟨5, 0⟩ .absolute,
    .move ⟨20, 20⟩ .absolute, .line ⟨30, 30⟩ .absolute, .close] _ [] .close rfl).2.2 rfl

end Cartograph.Contour
