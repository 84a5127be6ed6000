import Mathlib
import Cartograph.Placement.Icon
import Cartograph.Proofs.Path.Moves

/-! Moving a path. Its absolute operands are shifted, and relative ones follow the pen, so the
whole drawing moves along exactly if the pen is put down at a shifted place first: a path that
begins to draw where the pen happens to be keeps its first point. -/

namespace Cartograph

namespace Command

variable {α : Type}

def isClose : Command α → Bool
  | close => true
  | _ => false

/-- No operand depends on where the pen is. -/
def isAbsolute : Command α → Bool
  | move _ mode | line _ mode | curve _ _ _ mode | horizontal _ mode | vertical _ mode =>
    mode = .absolute
  | close => true

def landing [Add α] (p : Point α) : Command α → Point α
  | move target mode => (Pen.lifted p).resolve target mode
  | _ => p

theorem eq_close_of_isClose (command : Command α) (closes : command.isClose = true) :
    command = .close := by
  cases command <;> first | rfl | cases closes

@[simp] theorem isClose_shift [Add α] (offset : Point α) (command : Command α) :
    (command.shift offset).isClose = command.isClose := by
  unfold shift
  split <;> rfl

theorem landing_shift [Add α] (offset p : Point α) (command : Command α)
    (follows : ∀ q, command ≠ .move q .absolute) :
    (command.shift offset).landing p = command.landing p := by
  unfold shift
  split
  · exact absurd rfl (follows _)
  all_goals rfl

end Command

namespace PenEvent

def shift {α : Type} [Add α] (offset : Point α) : PenEvent α → PenEvent α := map (· + offset)

end PenEvent

namespace Path

variable {α : Type}

/-- The first command that is more than a close puts the pen down at a place of its own. -/
def IsPlaced (path : List (Command α)) : Prop :=
  match path.find? (!·.isClose) with
  | none => True
  | some (.move _ .absolute) => True
  | some _ => False

end Path

namespace Point

/-- Two numbers may be added in either order, which sums that are rounded do not allow. -/
def SumsReorder (α : Type) [Add α] : Prop := ∀ a b c : α, a + b + c = a + c + b

theorem add_reorder {α : Type} [Add α] (exact : SumsReorder α) (p q r : Point α) :
    p + q + r = p + r + q := by
  change (⟨p.x + q.x + r.x, p.y + q.y + r.y⟩ : Point α) = ⟨p.x + r.x + q.x, p.y + r.y + q.y⟩
  rw [exact p.x, exact p.y]

end Point

namespace Icon

def corner (position : Point Float) : Point Float := position - ⟨side / 2, side / 2⟩

theorem shape_of_mem_steps (icon : Icon) (position : Point Float) (isOutlined : Bool)
    (step : Step Empty) (member : step ∈ icon.steps position isOutlined) :
    ∃ shape ∈ icon.shapes, ∃ style,
      step = .shape (Path.shift shape.path (corner position)) style := by
  have drawn (style : Color → Style) (listed : step ∈ icon.shapeSteps position style) :
      ∃ shape ∈ icon.shapes, ∃ style,
        step = .shape (Path.shift shape.path (corner position)) style := by
    obtain ⟨shape, known, rfl⟩ := List.mem_map.mp listed
    exact ⟨shape, known, style shape.fill, rfl⟩
  unfold steps at member
  rcases List.mem_append.mp member with outline | fill
  · split at outline
    · exact drawn _ outline
    · cases outline
  · exact drawn _ fill

end Icon

namespace Pen

def shift {α : Type} [Add α] (offset : Point α) : Pen α → Pen α
  | lifted p => lifted (p + offset)
  | drawing start p => drawing (start + offset) (p + offset)

section Shift

variable {α : Type} [Add α] (offset : Point α)

@[simp] theorem current_shift (pen : Pen α) :
    (pen.shift offset).current = pen.current + offset := by
  cases pen <;> rfl

theorem draw_shift (pen : Pen α) (target : Point α) (event : PenEvent α) :
    (pen.shift offset).draw (target + offset) (event.shift offset) =
      ((pen.draw target event).1.shift offset,
        (pen.draw target event).2.map (PenEvent.shift offset)) := by
  cases pen <;> rfl

theorem moveTo_shift (pen : Pen α) (target : Point α) :
    (pen.shift offset).moveTo (target + offset) =
      ((pen.moveTo target).1.shift offset,
        (pen.moveTo target).2.map (PenEvent.shift offset)) := by
  cases pen <;> rfl

theorem closed_shift (pen : Pen α) :
    (pen.shift offset).closed =
      (pen.closed.1.shift offset, pen.closed.2.map (PenEvent.shift offset)) := by
  cases pen <;> rfl

variable [OfNat α 0]

theorem step_shift (pen : Pen α) (command : Command α)
    (apart : command.isAbsolute = true ∨ Point.SumsReorder α) :
    (pen.shift offset).step (command.shift offset) =
      ((pen.step command).1.shift offset,
        (pen.step command).2.map (PenEvent.shift offset)) := by
  have relative : command.isAbsolute = false → ∀ p : Point α,
      (pen.shift offset).current + p = pen.current + p + offset := by
    intro follows p
    rw [current_shift]
    rcases apart with absolute | exact
    · rw [follows] at absolute
      cases absolute
    · exact Point.add_reorder exact _ _ _
  cases command with
  | move p mode =>
    cases mode with
    | absolute => exact moveTo_shift offset pen p
    | relative =>
      change (pen.shift offset).moveTo ((pen.shift offset).current + p) = _
      rw [relative rfl, moveTo_shift]
      rfl
  | line p mode =>
    cases mode with
    | absolute => exact draw_shift offset pen p (.line p)
    | relative =>
      change (pen.shift offset).lineTo ((pen.shift offset).current + p) = _
      rw [relative rfl]
      exact draw_shift offset pen _ (.line _)
  | curve p q r mode =>
    cases mode with
    | absolute => exact draw_shift offset pen r (.curve p q r)
    | relative =>
      change (pen.shift offset).draw ((pen.shift offset).current + r)
        (.curve ((pen.shift offset).current + p) ((pen.shift offset).current + q)
          ((pen.shift offset).current + r)) = _
      rw [relative rfl, relative rfl, relative rfl]
      exact draw_shift offset pen _ (.curve _ _ _)
  | horizontal x mode =>
    cases mode with
    | absolute =>
      change (pen.shift offset).lineTo ⟨x + offset.x, (pen.shift offset).current.y⟩ = _
      rw [current_shift]
      exact draw_shift offset pen ⟨x, pen.current.y⟩ (.line ⟨x, pen.current.y⟩)
    | relative =>
      change (pen.shift offset).lineTo ((pen.shift offset).current + ⟨x, 0⟩) = _
      rw [relative rfl]
      exact draw_shift offset pen _ (.line _)
  | vertical y mode =>
    cases mode with
    | absolute =>
      change (pen.shift offset).lineTo ⟨(pen.shift offset).current.x, y + offset.y⟩ = _
      rw [current_shift]
      exact draw_shift offset pen ⟨pen.current.x, y⟩ (.line ⟨pen.current.x, y⟩)
    | relative =>
      change (pen.shift offset).lineTo ((pen.shift offset).current + ⟨0, y⟩) = _
      rw [relative rfl]
      exact draw_shift offset pen _ (.line _)
  | close => exact closed_shift offset pen

theorem run_shift (pen : Pen α) (path : List (Command α))
    (apart : ∀ command ∈ path, command.isAbsolute = true ∨ Point.SumsReorder α) :
    (pen.shift offset).run (Path.shift path offset) =
      (pen.run path).map (PenEvent.shift offset) := by
  induction path generalizing pen with
  | nil => rfl
  | cons command rest ih =>
    obtain ⟨first, others⟩ := List.forall_mem_cons.mp apart
    have step := step_shift offset pen command first
    change ((pen.shift offset).step (command.shift offset)).2 ++
      ((pen.shift offset).step (command.shift offset)).1.run (Path.shift rest offset) = _
    rw [step]
    simp only [run]
    rw [ih _ others, List.map_append]

theorem run_placed (pen other : Point α) (path : List (Command α)) (placed : Path.IsPlaced path)
    (apart : ∀ command ∈ path, command.isAbsolute = true ∨ Point.SumsReorder α) :
    (lifted pen).run (Path.shift path offset) =
      ((lifted other).run path).map (PenEvent.shift offset) := by
  induction path with
  | nil => rfl
  | cons command rest ih =>
    obtain ⟨-, others⟩ := List.forall_mem_cons.mp apart
    cases command with
    | close => exact ih placed others
    | move p mode =>
      cases mode with
      | absolute =>
        have together := run_shift offset (drawing p p) rest others
        exact congrArg (PenEvent.move (p + offset) :: ·) together
      | relative => exact placed.elim
    | line p mode => exact placed.elim
    | curve p q r mode => exact placed.elim
    | horizontal x mode => exact placed.elim
    | vertical y mode => exact placed.elim

theorem head_run (p : Point α) (command : Command α) (rest : List (Command α))
    (other : command.isClose = false) :
    ((lifted p).run (command :: rest)).head? = some (.move (command.landing p)) := by
  cases command with
  | horizontal x mode => cases mode <;> rfl
  | vertical y mode => cases mode <;> rfl
  | close => cases other
  | _ => rfl

end Shift

theorem run_displaced {α : Type} [AddCommGroup α] (offset p : Point α)
    (moved : offset ≠ Point.origin) (path : List (Command α)) (displaced : ¬ Path.IsPlaced path) :
    (lifted p).run (Path.shift path offset) ≠
      ((lifted p).run path).map (PenEvent.shift offset) := by
  induction path with
  | nil => exact absurd trivial displaced
  | cons command rest ih =>
    by_cases closes : command.isClose = true
    · obtain rfl := Command.eq_close_of_isClose command closes
      exact ih displaced
    · have other : command.isClose = false := Bool.eq_false_of_not_eq_true closes
      have follows : ∀ q, command ≠ .move q .absolute := by
        rintro q rfl
        exact displaced trivial
      intro same
      have heads := congrArg List.head? same
      change ((lifted p).run (command.shift offset :: Path.shift rest offset)).head? = _ at heads
      rw [List.head?_map, head_run p command rest other, head_run p _ _ (by simpa using other),
        Command.landing_shift offset p command follows] at heads
      have place : command.landing p = command.landing p + offset := by
        simpa [PenEvent.shift, PenEvent.map] using heads
      have x : (command.landing p).x = (command.landing p).x + offset.x := congrArg Point.x place
      have y : (command.landing p).y = (command.landing p).y + offset.y := congrArg Point.y place
      rw [left_eq_add] at x y
      exact moved (congrArg₂ Point.mk x y)

end Pen

namespace Path

/-- Where sums are exact, as those of rationals are, a path moves with its drawing exactly if it is
placed. Rounded sums keep this for absolute operands, and so for the shapes of icons. -/
theorem shift_moves_drawing :
    (∀ {α : Type} [AddCommGroup α] (path : List (Command α)) (offset : Point α),
      offset ≠ Point.origin →
      (events (shift path offset) = (events path).map (PenEvent.map (· + offset)) ↔
        IsPlaced path)) ∧
    (∀ (path : Path) (offset : Point Float), (∀ command ∈ path, command.isAbsolute = true) →
      IsPlaced path →
      events (shift path offset) = (events path).map (PenEvent.map (· + offset))) ∧
    ∀ (icon : Icon) (position : Point Float) (isOutlined : Bool),
      (∀ shape ∈ icon.shapes,
        IsPlaced shape.path ∧ ∀ command ∈ shape.path, command.isAbsolute = true) →
      ∀ step ∈ icon.steps position isOutlined, ∃ shape ∈ icon.shapes, ∃ path style,
        step = .shape path style ∧
          events path =
            (events shape.path).map (PenEvent.map (· + Icon.corner position)) := by
  have exact (path : Path) (offset : Point Float)
      (absolute : ∀ command ∈ path, command.isAbsolute = true) (placed : IsPlaced path) :
      events (shift path offset) = (events path).map (PenEvent.map (· + offset)) :=
    Pen.run_placed offset _ _ path placed fun command member => .inl (absolute command member)
  refine ⟨?_, exact, ?_⟩
  · intro α _ path offset moved
    constructor
    · intro same
      by_contra displaced
      exact Pen.run_displaced offset _ moved path displaced same
    · intro placed
      exact Pen.run_placed offset _ _ path placed fun _ _ => .inr fun a b c => add_right_comm a b c
  · intro icon position isOutlined lawful step member
    obtain ⟨shape, listed, style, rfl⟩ := icon.shape_of_mem_steps position isOutlined step member
    obtain ⟨placed, absolute⟩ := lawful shape listed
    exact ⟨shape, listed, _, style, rfl, exact shape.path _ absolute placed⟩

/-- Begins with a close that has nothing to close, and ends with a line from the place to which
the second one returns. -/
def hook : List (Command ℚ) :=
  [.close, .move ⟨1, 2⟩ .absolute, .horizontal 3 .relative, .vertical 5 .absolute, .close,
    .line ⟨1, 1⟩ .relative]

theorem hook_moves :
    (⟨10, -4⟩ : Point ℚ) ≠ Point.origin ∧
    events (shift hook ⟨10, -4⟩) = [.move ⟨11, -2⟩, .line ⟨14, -2⟩, .line ⟨14, 1⟩,
      .line ⟨11, -2⟩, .close, .move ⟨11, -2⟩, .line ⟨12, -1⟩] ∧
    events (shift (.move ⟨1, 2⟩ .relative :: hook) ⟨10, -4⟩) ≠
      (events (.move ⟨1, 2⟩ .relative :: hook)).map (PenEvent.map (· + ⟨10, -4⟩)) := by
  have moved : (⟨10, -4⟩ : Point ℚ) ≠ Point.origin := by
    intro same
    have x : (10 : ℚ) = 0 := congrArg Point.x same
    norm_num at x
  refine ⟨moved, ?_, ?_⟩
  · have placed : IsPlaced hook := trivial
    rw [(shift_moves_drawing.1 hook ⟨10, -4⟩ moved).mpr placed]
    with_unfolding_all rfl
  · intro same
    exact (shift_moves_drawing.1 _ _ moved).mp same

end Path

end Cartograph
