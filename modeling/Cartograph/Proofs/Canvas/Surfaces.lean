import Cartograph.Canvas.Outline
import Cartograph.Proofs.Canvas.Frame
import Cartograph.Proofs.Canvas.PathData
import Cartograph.Proofs.Path.Moves
import Cartograph.Proofs.Path.RoundTrip

/-! Vector drawings and painted pixels show the same contours. The calls that build an outline
are the written elements of the path data in single precision, and the repairs that a builder
makes to a contour without a move are never needed. -/

namespace Cartograph

open Contour

namespace Outline

def Builder.call (builder : Builder) : PenEvent Float32 → Builder
  | .move p => builder.moveTo p
  | .line p => builder.lineTo p
  | .curve p q r => builder.curveTo p q r
  | .close => builder.close

namespace Tracer

def call? (tracer : Tracer) : PenEvent Float → Option (PenEvent Float32)
  | .move p => some (.move p.toSingle)
  | .line p => some (.line p.toSingle)
  | .curve p q r => some (.curve p.toSingle q.toSingle r.toSingle)
  | .close => if tracer.current == tracer.moved then some .close else none

def calls (tracer : Tracer) : List (PenEvent Float) → List (PenEvent Float32)
  | [] => []
  | event :: rest => (tracer.call? event).toList ++ (tracer.event event).calls rest

theorem builder_event (tracer : Tracer) (event : PenEvent Float) :
    (tracer.event event).builder =
      (tracer.call? event).toList.foldl Builder.call tracer.builder := by
  cases event with
  | move p => rfl
  | line p => rfl
  | curve p q r => rfl
  | close =>
    simp only [Tracer.event, call?]
    split <;> rfl

theorem builder_events (tracer : Tracer) (events : List (PenEvent Float)) :
    (events.foldl Tracer.event tracer).builder =
      (tracer.calls events).foldl Builder.call tracer.builder := by
  induction events generalizing tracer with
  | nil => rfl
  | cons event rest ih =>
    rw [List.foldl_cons, ih, builder_event, calls, List.foldl_append]

theorem calls_eq_elements (tracer : Tracer) (events : List (PenEvent Float)) :
    tracer.calls events =
      (PathData.elementsFrom tracer.moved tracer.current events).map
        (PenEvent.map Point.toSingle) := by
  induction events generalizing tracer with
  | nil => rfl
  | cons event rest ih =>
    rw [calls, ih]
    cases event with
    | move p => rfl
    | line p => rfl
    | curve p q r => rfl
    | close =>
      cases back : tracer.current == tracer.moved <;>
        simp [call?, Tracer.event, PathData.elementsFrom, bne, back, PenEvent.map]

end Tracer

/-- A contour that the events have opened is open in the builder too, with something to close. -/
structure Builder.Sound (history : List (PenEvent Float)) (builder : Builder) : Prop where
  move_open : ∀ p earlier, builder.parts = .move p :: earlier → builder.needsMove = false
  contour_open : ∀ p, beginning? history = some p →
    builder.needsMove = false ∧ ∃ first earlier,
      builder.parts = first :: earlier ∧ isClose first = false

namespace Builder

theorem sound_empty : Sound [] empty := by
  constructor
  · intro p earlier first
    cases first
  · intro p began
    cases began

theorem moveTo_parts (builder : Builder) (p : Point Float32) :
    (builder.moveTo p).parts = push builder.parts (.move p) := by
  obtain ⟨parts, start, needsMove⟩ := builder
  cases parts with
  | nil => rfl
  | cons first earlier => cases first <;> rfl

theorem moveTo_open (builder : Builder) (p : Point Float32)
    (sound : ∀ q earlier, builder.parts = .move q :: earlier → builder.needsMove = false) :
    (builder.moveTo p).needsMove = false ∧
      ∃ earlier, (builder.moveTo p).parts = .move p :: earlier := by
  unfold moveTo
  split
  next q earlier first => exact ⟨sound q earlier first, earlier, rfl⟩
  next parts other => exact ⟨rfl, _, rfl⟩

theorem close_parts (builder : Builder)
    (closable : ∃ first earlier, builder.parts = first :: earlier ∧ isClose first = false) :
    builder.close.parts = .close :: builder.parts := by
  obtain ⟨first, earlier, parts, other⟩ := closable
  unfold close
  rw [parts]
  cases first with
  | close => cases other
  | move p => rfl
  | line p => rfl
  | curve p q r => rfl

theorem opened_of_sound (history : List (PenEvent Float)) (builder : Builder)
    (sound : Sound history builder) (began : ∃ p, beginning? history = some p) :
    builder.opened = builder := by
  obtain ⟨p, began⟩ := began
  rw [opened, if_neg (by rw [(sound.contour_open p began).1]; decide)]

theorem sound_part (history : List (PenEvent Float)) (event : PenEvent Float)
    (part : PenEvent Float32) (builder : Builder) (contour : builder.needsMove = false)
    (other : isClose part = false) :
    Sound (history ++ [event]) { builder with parts := part :: builder.parts } := by
  constructor
  · exact fun _ _ _ => contour
  · exact fun _ _ => ⟨contour, part, builder.parts, rfl, other⟩

end Builder

namespace Tracer

theorem sound_event (history : List (PenEvent Float)) (event : PenEvent Float)
    (tracer : Tracer) (sound : Builder.Sound history tracer.builder)
    (follows : Follows history event) :
    Builder.Sound (history ++ [event]) (tracer.event event).builder := by
  cases event with
  | move p =>
    obtain ⟨contour, earlier, first⟩ :=
      Builder.moveTo_open tracer.builder p.toSingle sound.move_open
    exact ⟨fun _ _ _ => contour, fun _ _ => ⟨contour, _, earlier, first, rfl⟩⟩
  | line p =>
    obtain ⟨q, began⟩ := follows
    have contour := (sound.contour_open q began).1
    change Builder.Sound _ (tracer.builder.lineTo p.toSingle)
    rw [Builder.lineTo, Builder.opened_of_sound history _ sound ⟨q, began⟩]
    exact Builder.sound_part history _ _ _ contour rfl
  | curve p q r =>
    obtain ⟨t, began⟩ := follows
    have contour := (sound.contour_open t began).1
    change Builder.Sound _ (tracer.builder.curveTo p.toSingle q.toSingle r.toSingle)
    rw [Builder.curveTo, Builder.opened_of_sound history _ sound ⟨t, began⟩]
    exact Builder.sound_part history _ _ _ contour rfl
  | close =>
    obtain ⟨q, began, -⟩ := follows
    obtain ⟨-, closable⟩ := sound.contour_open q began
    constructor
    · intro p earlier first
      simp only [Tracer.event] at first ⊢
      split at first
      · rw [Builder.close_parts _ closable] at first
        cases first
      next apart =>
        rw [if_neg apart]
        exact sound.move_open p earlier first
    · intro p began
      simp at began

theorem parts_event (history : List (PenEvent Float)) (event : PenEvent Float)
    (tracer : Tracer) (sound : Builder.Sound history tracer.builder)
    (follows : Follows history event) :
    (tracer.event event).builder.parts =
      (tracer.call? event).toList.foldl push tracer.builder.parts := by
  cases event with
  | move p => exact Builder.moveTo_parts tracer.builder p.toSingle
  | line p =>
    change (tracer.builder.lineTo p.toSingle).parts = push tracer.builder.parts (.line p.toSingle)
    rw [push_other _ _ rfl, Builder.lineTo, Builder.opened_of_sound history _ sound follows]
  | curve p q r =>
    change (tracer.builder.curveTo p.toSingle q.toSingle r.toSingle).parts =
      push tracer.builder.parts (.curve p.toSingle q.toSingle r.toSingle)
    rw [push_other _ _ rfl, Builder.curveTo, Builder.opened_of_sound history _ sound follows]
  | close =>
    obtain ⟨q, began, -⟩ := follows
    have closable := (sound.contour_open q began).2
    simp only [Tracer.event, call?]
    split
    · change tracer.builder.close.parts = push tracer.builder.parts .close
      rw [push_other _ _ rfl, Builder.close_parts _ closable]
    · rfl

theorem parts_events (history : List (PenEvent Float)) (events : List (PenEvent Float))
    (tracer : Tracer) (sound : Builder.Sound history tracer.builder)
    (ordered : Ordered history events) :
    (events.foldl Tracer.event tracer).builder.parts =
      (tracer.calls events).foldl push tracer.builder.parts := by
  induction events generalizing history tracer with
  | nil => rfl
  | cons event rest ih =>
    obtain ⟨follows, later⟩ := ordered
    have step := sound_event history event tracer sound follows
    rw [List.foldl_cons, ih _ _ step later, calls, List.foldl_append,
      parts_event history event tracer sound follows]

end Tracer

theorem finish_of_reachable (builder : Builder)
    (begins : builder.parts.reverse = [] ∨ ∃ p rest, builder.parts.reverse = .move p :: rest)
    (reachable : Frame.Reachable (builder.parts.reverse.flatMap points)) :
    finish builder =
      if 2 ≤ builder.parts.reverse.length then some builder.parts.reverse else none := by
  rcases begins with empty | ⟨p, rest, first⟩
  · simp [finish, empty, Frame.ofPlaces?, Frame.addAll]
  · obtain ⟨frame, found, spans⟩ := Frame.spans_ofPlaces p (rest.flatMap points)
    rw [first] at reachable
    have within := Frame.isWithinReach_of_spans _ frame spans reachable
    simp only [finish, first, List.flatMap_cons, points, List.singleton_append, found, within,
      Bool.and_true, decide_eq_true_eq]

theorem parts_of_path (path : Path) :
    ((Path.events path).foldl Tracer.event Tracer.start).builder.parts.reverse =
      (collapse (PathData.elements path)).map (PenEvent.map Point.toSingle) := by
  have ordered := ordered_run [] (Pen.lifted Point.origin) path rfl
  have parts := Tracer.parts_events [] (Path.events path) Tracer.start Builder.sound_empty ordered
  rw [parts, Tracer.calls_eq_elements]
  change (List.foldl push [] _).reverse = _
  rw [foldl_push, collapse_map]
  rfl

theorem ofPath_of_reachable (path : Path)
    (reachable : Frame.Reachable
      (((collapse (PathData.elements path)).map (PenEvent.map Point.toSingle)).flatMap points)) :
    ofPath? path =
      if 2 ≤ (collapse (PathData.elements path)).length then
        some ((collapse (PathData.elements path)).map (PenEvent.map Point.toSingle))
      else none := by
  have ordered := ordered_run [] (Pen.lifted Point.origin) path rfl
  have parts := parts_of_path path
  rw [← parts] at reachable
  rw [ofPath?, finish_of_reachable _ _ reachable, parts, List.length_map]
  rw [parts]
  rcases PathData.elementsFrom_after_close [] Point.origin Point.origin _ ordered rfl with
    empty | ⟨p, rest, first⟩
  · left
    rw [PathData.elements, Path.events, empty]
    rfl
  · right
    obtain ⟨q, later, begins⟩ := collapse_move p rest
    rw [PathData.elements, Path.events, first, begins]
    exact ⟨_, _, rfl⟩

/-- Both surfaces draw the lines and curves of the pen and nothing else. The path data are written
one element after the other and can be read back. A viewer of them finds its pen at the latest move
wherever a close is written. -/
theorem surfaces_show_same_contours (path : Path) :
    (PathData.text path = Path.text ((PathData.elements path).map PathData.command) ∧
      ((∀ c ∈ (PathData.elements path).map PathData.command, c.Legible) →
        Path.read (PathData.text path) =
          .ok ((PathData.elements path).map PathData.command))) ∧
    (Tracer.start.calls (Path.events path) =
        (PathData.elements path).map (PenEvent.map Point.toSingle) ∧
      ((Path.events path).foldl Tracer.event Tracer.start).builder =
        (Tracer.start.calls (Path.events path)).foldl Builder.call Builder.empty) ∧
    (∀ before after, PathData.elements path = before ++ .close :: after →
      ((before.foldl PathData.Viewer.next ⟨Point.origin, Point.origin⟩).current ==
        (before.foldl PathData.Viewer.next ⟨Point.origin, Point.origin⟩).moved) = true ∧
      (after = [] ∨ ∃ p rest, after = .move p :: rest)) ∧
    PathData.Viewer.edges ⟨Point.origin, Point.origin⟩ (PathData.elements path) =
      PathData.penEdges Point.origin (Path.events path) ∧
    (Frame.Reachable
        (((collapse (PathData.elements path)).map (PenEvent.map Point.toSingle)).flatMap
          points) →
      ofPath? path =
        if 2 ≤ (collapse (PathData.elements path)).length then
          some ((collapse (PathData.elements path)).map (PenEvent.map Point.toSingle))
        else none) := by
  have ordered := ordered_run [] (Pen.lifted Point.origin) path rfl
  have written := PathData.text_eq_commands path
  refine ⟨⟨written, ?_⟩, ⟨Tracer.calls_eq_elements _ _, Tracer.builder_events _ _⟩, ?_, ?_,
    ofPath_of_reachable path⟩
  · intro legible
    rw [written]
    exact Path.read_text _ legible
  · exact PathData.close_elementsFrom [] _ _ _ _ ordered fun _ => rfl
  · exact PathData.edges_elementsFrom [] _ _ _ _ ordered fun _ => rfl

def closedAndOpen : Path :=
  [.move ⟨0, 0⟩ .absolute, .line ⟨5, 0⟩ .absolute, .close, .move ⟨9, 9⟩ .absolute,
    .move ⟨20, 20⟩ .absolute, .line ⟨21, 0.1⟩ .absolute]

theorem closedAndOpen_outline :
    Frame.Reachable (((collapse (PathData.elements closedAndOpen)).map
      (PenEvent.map Point.toSingle)).flatMap points) ∧
    ofPath? closedAndOpen = some [.move ⟨0, 0⟩, .line ⟨5, 0⟩, .line ⟨0, 0⟩, .close,
      .move ⟨20, 20⟩, .line ⟨21, 0.1⟩] := by
  have reachable : Frame.Reachable (((collapse (PathData.elements closedAndOpen)).map
      (PenEvent.map Point.toSingle)).flatMap points) := by decide +kernel
  exact ⟨reachable, (surfaces_show_same_contours closedAndOpen).2.2.2.2 reachable⟩

end Outline

end Cartograph
