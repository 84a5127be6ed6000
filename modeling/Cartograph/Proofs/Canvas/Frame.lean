import Cartograph.Canvas.Frame

/-! Frames around places. Every side of a frame touches one of the places in it, so places that
are near to each other have a small frame. -/

namespace Cartograph

namespace Frame

structure Spans (places : List (Point Float32)) (frame : Frame) : Prop where
  finite : (∀ p ∈ places, p.isFinite = true) → frame.isFinite = true
  left : ∃ p ∈ places, p.x = frame.low.x
  top : ∃ p ∈ places, p.y = frame.low.y
  right : ∃ p ∈ places, p.x = frame.high.x
  bottom : ∃ p ∈ places, p.y = frame.high.y

private theorem touched (places : List (Point Float32)) (p : Point Float32)
    (side : Point Float32 → Float32) (value : Float32) (moves : Prop) [Decidable moves]
    (known : ∃ q ∈ places, side q = value) :
    ∃ q ∈ places ++ [p], side q = if moves then side p else value := by
  split
  · exact ⟨p, by simp, rfl⟩
  · obtain ⟨q, member, same⟩ := known
    exact ⟨q, List.mem_append_left _ member, same⟩

theorem spans_add (places : List (Point Float32)) (frame : Frame) (p : Point Float32)
    (spans : Spans places frame) : Spans (places ++ [p]) (frame.add p) where
  finite all := by
    have earlier := spans.finite fun q member => all q (List.mem_append_left _ member)
    have last := all p (by simp)
    simp [add, earlier, last]
  left := touched places p Point.x _ _ spans.left
  top := touched places p Point.y _ _ spans.top
  right := touched places p Point.x _ _ spans.right
  bottom := touched places p Point.y _ _ spans.bottom

theorem spans_addAll (seen places : List (Point Float32)) (frame : Frame)
    (spans : Spans seen frame) :
    ∃ whole, addAll (some frame) places = some whole ∧ Spans (seen ++ places) whole := by
  induction places generalizing seen frame with
  | nil => exact ⟨frame, rfl, by simpa using spans⟩
  | cons p rest ih =>
    obtain ⟨whole, found, later⟩ := ih _ _ (spans_add seen frame p spans)
    exact ⟨whole, found, by simpa using later⟩

theorem spans_ofPlaces (p : Point Float32) (rest : List (Point Float32)) :
    ∃ frame, ofPlaces? (p :: rest) = some frame ∧ Spans (p :: rest) frame := by
  have single : Spans [p] (ofPlace p) :=
    ⟨fun all => all p (by simp), ⟨p, by simp, rfl⟩, ⟨p, by simp, rfl⟩, ⟨p, by simp, rfl⟩,
      ⟨p, by simp, rfl⟩⟩
  exact spans_addAll [p] rest (ofPlace p) single

/-- All places are finite, and no two of them are too far from each other. -/
def Reachable (places : List (Point Float32)) : Prop :=
  (∀ p ∈ places, p.isFinite = true) ∧ ∀ p ∈ places, ∀ q ∈ places,
    Number.toDouble p.x - Number.toDouble q.x < largestExtent ∧
      Number.toDouble p.y - Number.toDouble q.y < largestExtent

instance (places : List (Point Float32)) : Decidable (Reachable places) :=
  inferInstanceAs (Decidable (_ ∧ _))

theorem isWithinReach_of_spans (places : List (Point Float32)) (frame : Frame)
    (spans : Spans places frame) (reachable : Reachable places) :
    frame.isWithinReach = true := by
  obtain ⟨finite, near⟩ := reachable
  obtain ⟨left, left_mem, left_eq⟩ := spans.left
  obtain ⟨top, top_mem, top_eq⟩ := spans.top
  obtain ⟨right, right_mem, right_eq⟩ := spans.right
  obtain ⟨bottom, bottom_mem, bottom_eq⟩ := spans.bottom
  have width := (near right right_mem left left_mem).1
  have height := (near bottom bottom_mem top top_mem).2
  rw [right_eq, left_eq] at width
  rw [bottom_eq, top_eq] at height
  simp [isWithinReach, spans.finite finite, width, height]

end Frame

end Cartograph
