import Cartograph.Canvas.PathData
import Cartograph.Proofs.Path.Contour

/-! Path data as a viewer reads it, for whom a close draws a line back to the latest move. The
close letters that are written add no edge to the ones that the pen draws. -/

namespace Cartograph.PathData

open Contour

variable {α : Type}

structure Viewer (α : Type) where
  moved : Point α
  current : Point α

abbrev Edge (α : Type) := Point α × PenEvent α

namespace Viewer

def next (viewer : Viewer α) : PenEvent α → Viewer α
  | .move p => ⟨p, p⟩
  | .line p => ⟨viewer.moved, p⟩
  | .curve _ _ r => ⟨viewer.moved, r⟩
  | .close => ⟨viewer.moved, viewer.moved⟩

def edge [BEq α] (viewer : Viewer α) : PenEvent α → List (Edge α)
  | .move _ => []
  | .line p => [(viewer.current, .line p)]
  | .curve p q r => [(viewer.current, .curve p q r)]
  | .close =>
    if viewer.current == viewer.moved then [] else [(viewer.current, .line viewer.moved)]

def edges [BEq α] (viewer : Viewer α) : List (PenEvent α) → List (Edge α)
  | [] => []
  | element :: rest => viewer.edge element ++ (viewer.next element).edges rest

end Viewer

/-- The lines and curves among the events of a pen; its closes draw nothing. -/
def penEdges (current : Point α) : List (PenEvent α) → List (Edge α)
  | [] => []
  | .move p :: rest => penEdges p rest
  | .line p :: rest => (current, .line p) :: penEdges p rest
  | .curve p q r :: rest => (current, .curve p q r) :: penEdges r rest
  | .close :: rest => penEdges current rest

def command : PenEvent Float → Command Float
  | .move p => .move p .absolute
  | .line p => .line p .absolute
  | .curve p q r => .curve p q r .absolute
  | .close => .close

theorem text_eq_commands (path : Path) : text path = Path.text ((elements path).map command) := by
  have each : Command.text ∘ command = elementText := by
    funext element
    cases element <;> rfl
  rw [text, Path.text, List.map_map, each]

private theorem split_after_other (element : PenEvent α) (other : isClose element = false)
    (rest before after : List (PenEvent α))
    (split : element :: rest = before ++ .close :: after) :
    ∃ earlier, before = element :: earlier ∧ rest = earlier ++ .close :: after := by
  rcases List.cons_eq_append_iff.mp split with ⟨-, head⟩ | found
  · obtain ⟨rfl, -⟩ := List.cons.inj head
    cases other
  · exact found

section Elements

variable [BEq α]

/-- After a close the viewer's pen may stand elsewhere, but then a move comes next. -/
theorem edges_elementsFrom (history : List (PenEvent α)) (moved current place : Point α)
    (events : List (PenEvent α)) (ordered : Ordered history events)
    (same : (∃ p, beginning? history = some p) → place = current) :
    Viewer.edges ⟨moved, place⟩ (elementsFrom moved current events) =
      penEdges current events := by
  induction events generalizing history moved current place with
  | nil => rfl
  | cons event rest ih =>
    obtain ⟨follows, later⟩ := ordered
    cases event with
    | move p => exact ih _ p p p later fun _ => rfl
    | line p =>
      rw [same follows]
      exact congrArg (_ :: ·) (ih _ moved p p later fun _ => rfl)
    | curve p q r =>
      rw [same follows]
      exact congrArg (_ :: ·) (ih _ moved r r later fun _ => rfl)
    | close =>
      obtain ⟨p, began, -⟩ := follows
      have closed : ¬ ∃ p, beginning? (history ++ [.close]) = some p := by simp
      rw [same ⟨p, began⟩]
      cases back : current == moved with
      | true =>
        have step := ih _ moved current moved later fun found => absurd found closed
        simpa [elementsFrom, penEdges, Viewer.edges, Viewer.edge, Viewer.next, bne, back]
          using step
      | false =>
        have step := ih _ moved current current later fun _ => rfl
        simpa [elementsFrom, penEdges, bne, back] using step

theorem elementsFrom_after_close (history : List (PenEvent α)) (moved current : Point α)
    (events : List (PenEvent α)) (ordered : Ordered history events)
    (closed : beginning? history = none) :
    elementsFrom moved current events = [] ∨
      ∃ p rest, elementsFrom moved current events = .move p :: rest := by
  cases events with
  | nil => exact .inl rfl
  | cons event rest =>
    have follows := ordered.1
    cases event with
    | move p => exact .inr ⟨p, _, rfl⟩
    | line p => simp [Follows, closed] at follows
    | curve p q r => simp [Follows, closed] at follows
    | close => simp [Follows, closed] at follows

/-- A written close finds the pen at the latest move, and nothing is drawn right after it. -/
theorem close_elementsFrom (history : List (PenEvent α)) (moved current place : Point α)
    (events : List (PenEvent α)) (ordered : Ordered history events)
    (same : (∃ p, beginning? history = some p) → place = current)
    (before after : List (PenEvent α))
    (split : elementsFrom moved current events = before ++ .close :: after) :
    ((before.foldl Viewer.next ⟨moved, place⟩).current ==
      (before.foldl Viewer.next ⟨moved, place⟩).moved) = true ∧
      (after = [] ∨ ∃ p rest, after = .move p :: rest) := by
  induction events generalizing history moved current place before with
  | nil => simp [elementsFrom] at split
  | cons event rest ih =>
    obtain ⟨follows, later⟩ := ordered
    cases event with
    | move p =>
      obtain ⟨earlier, rfl, tail⟩ := split_after_other _ rfl _ before after split
      exact ih _ p p p later (fun _ => rfl) earlier tail
    | line p =>
      obtain ⟨earlier, rfl, tail⟩ := split_after_other _ rfl _ before after split
      exact ih _ moved p p later (fun _ => rfl) earlier tail
    | curve p q r =>
      obtain ⟨earlier, rfl, tail⟩ := split_after_other _ rfl _ before after split
      exact ih _ moved r r later (fun _ => rfl) earlier tail
    | close =>
      obtain ⟨p, began, -⟩ := follows
      have closed : beginning? (history ++ [.close]) = none := beginning_close history
      cases back : current == moved with
      | false =>
        simp only [elementsFrom, bne, back, Bool.not_false, if_true] at split
        exact ih _ moved current place later (fun _ => same ⟨p, began⟩) before split
      | true =>
        simp only [elementsFrom, bne, back, Bool.not_true, Bool.false_eq_true, if_false] at split
        rcases List.cons_eq_append_iff.mp split with ⟨rfl, tail⟩ | ⟨earlier, rfl, tail⟩
        · rw [same ⟨p, began⟩]
          refine ⟨back, ?_⟩
          rw [(List.cons.inj tail).2]
          exact elementsFrom_after_close _ moved current rest later closed
        · exact ih _ moved current moved later (fun found => by simp at found) earlier tail

end Elements

end Cartograph.PathData
