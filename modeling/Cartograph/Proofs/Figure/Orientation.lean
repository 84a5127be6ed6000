import Mathlib
import Cartograph.Figure.Basic
import Cartograph.Proofs.Figure.Area

/-! Rings in exact arithmetic. The area of a ring depends neither on the point that it starts from
nor on where it lies, and normalization gives holes and boundaries the directions in which they
have areas of opposite signs. -/

namespace Cartograph.Ring

/-- The ring, in one of its two directions. -/
def SameWay {β : Type} (given turned : List β) : Prop := turned = given ∨ turned = given.reverse

section Edges

variable {β : Type}

theorem turns_rotate (ring : List β) (count : Nat) :
    (turns (ring.rotate count)).Perm (turns ring) := by
  induction count generalizing ring with
  | zero => rw [List.rotate_zero]
  | succ count later =>
    cases ring with
    | nil => rw [List.rotate_nil]
    | cons a rest =>
      rw [List.rotate_cons_succ]
      exact (later _).trans (turns_append_singleton rest a)

variable {α : Type} [CommRing α] (f : β → α)

theorem sum_steps (a : β) (line : List β) (b : β) :
    ((steps (a :: (line ++ [b]))).map fun edge => f edge.2 - f edge.1).sum = f b - f a := by
  induction line generalizing a with
  | nil => simp [steps]
  | cons c rest later =>
    have head : steps (a :: (c :: rest ++ [b])) = (a, c) :: steps (c :: (rest ++ [b])) := rfl
    rw [head, List.map_cons, List.sum_cons, later]
    ring

theorem sum_turns (ring : List β) :
    ((turns ring).map fun edge => f edge.2 - f edge.1).sum = 0 := by
  cases ring with
  | nil => rfl
  | cons a rest => exact (sum_steps f a rest a).trans (sub_self _)

end Edges

section Exact

variable {α : Type} [CommRing α] (ring : List (Point α))

/-- Twice the enclosed area, by the cross products of neighbours: positive for a ring that turns
counterclockwise where y points up. -/
def crossSum : α := ((turns ring).map fun edge => edge.1.cross edge.2).sum

theorem signedAreaSum_eq_sum : signedAreaSum ring = ((turns ring).map areaTerm).sum := by
  rw [signedAreaSum, sum_eq]

theorem signedAreaSum_rotate (count : Nat) :
    signedAreaSum (ring.rotate count) = signedAreaSum ring := by
  rw [signedAreaSum_eq_sum, signedAreaSum_eq_sum]
  exact ((turns_rotate ring count).map areaTerm).sum_eq

theorem signedAreaSum_shift (shift : Point α) :
    signedAreaSum (ring.map (· + shift)) = signedAreaSum ring := by
  have moved (edge : Point α × Point α) : areaTerm (edge.map (· + shift) (· + shift)) =
      areaTerm edge + (edge.2.x - edge.1.x) * (2 * shift.y) := by
    obtain ⟨p, q⟩ := edge
    change (q.x + shift.x - (p.x + shift.x)) * (q.y + shift.y + (p.y + shift.y)) =
      (q.x - p.x) * (q.y + p.y) + (q.x - p.x) * (2 * shift.y)
    ring
  calc signedAreaSum (ring.map (· + shift))
      = ((turns ring).map fun edge =>
          areaTerm edge + (edge.2.x - edge.1.x) * (2 * shift.y)).sum := by
        rw [signedAreaSum_eq_sum, turns_map, List.map_map]
        exact congrArg List.sum (List.map_congr_left fun edge _ => moved edge)
    _ = signedAreaSum ring +
          ((turns ring).map fun edge => edge.2.x - edge.1.x).sum * (2 * shift.y) := by
        rw [List.sum_map_add, List.sum_map_mul_right, signedAreaSum_eq_sum]
    _ = signedAreaSum ring := by
        rw [sum_turns Point.x ring, zero_mul, add_zero]

theorem signedAreaSum_eq_neg_crossSum : signedAreaSum ring = -crossSum ring := by
  have split (edge : Point α × Point α) : areaTerm edge + edge.1.cross edge.2 =
      edge.2.x * edge.2.y - edge.1.x * edge.1.y := by
    obtain ⟨p, q⟩ := edge
    change (q.x - p.x) * (q.y + p.y) + (p.x * q.y - p.y * q.x) = q.x * q.y - p.x * p.y
    ring
  rw [eq_neg_iff_add_eq_zero, signedAreaSum_eq_sum, crossSum, ← List.sum_map_add,
    List.map_congr_left fun edge _ => split edge]
  exact sum_turns (fun p : Point α => p.x * p.y) ring

end Exact

section Turned

variable {α : Type} [Add α] [Sub α] [Mul α] [Neg α] [OfNat α 0] [LE α] [DecidableLE α]

theorem sameWay_clockwise (ring : List (Point α)) : SameWay ring (clockwise ring) := by
  rw [clockwise_eq]
  split
  · exact .inl rfl
  · exact .inr rfl

theorem sameWay_counterClockwise (ring : List (Point α)) :
    SameWay ring (counterClockwise ring) := by
  rw [counterClockwise_eq]
  split
  · exact .inr rfl
  · exact .inl rfl

theorem normalize_eq (inners outers : List (List (Point α))) (some_inner : inners ≠ [])
    (some_outer : outers ≠ []) :
    normalize inners outers = (inners.map clockwise, outers.map counterClockwise) := by
  unfold normalize normalizeBy
  rw [if_neg (by simp [some_inner, some_outer])]
  rfl

theorem sameWay_normalize (inners outers : List (List (Point α))) :
    List.Forall₂ SameWay inners (normalize inners outers).1 ∧
      List.Forall₂ SameWay outers (normalize inners outers).2 := by
  by_cases both : inners ≠ [] ∧ outers ≠ []
  · rw [normalize_eq inners outers both.1 both.2, List.forall₂_map_right_iff,
      List.forall₂_map_right_iff, List.forall₂_same, List.forall₂_same]
    exact ⟨fun hole _ => sameWay_clockwise hole, fun outer _ => sameWay_counterClockwise outer⟩
  · have kept : normalize inners outers = (inners, outers) := by
      unfold normalize normalizeBy
      rw [if_pos (by simpa [or_iff_not_imp_left] using both)]
    rw [kept, List.forall₂_same, List.forall₂_same]
    exact ⟨fun _ _ => .inl rfl, fun _ _ => .inl rfl⟩

end Turned

section Signs

variable {α : Type} [CommRing α] [LinearOrder α] [IsStrictOrderedRing α] (ring : List (Point α))

theorem signedAreaSum_clockwise : 0 ≤ signedAreaSum (clockwise ring) := by
  rw [clockwise_eq]
  split
  · next right => exact (isClockwise_iff ring).mp right
  · next wrong =>
    rw [isClockwise_iff, not_le] at wrong
    rw [signedAreaSum_reverse]
    exact (neg_pos.mpr wrong).le

theorem signedAreaSum_counterClockwise : signedAreaSum (counterClockwise ring) ≤ 0 := by
  rw [counterClockwise_eq]
  split
  · next wrong =>
    rw [signedAreaSum_reverse]
    exact neg_nonpos.mpr ((isClockwise_iff ring).mp wrong)
  · next right =>
    rw [isClockwise_iff, not_le] at right
    exact right.le

theorem signedAreaSum_counterClockwise_neg (area : crossSum ring ≠ 0) :
    signedAreaSum (counterClockwise ring) < 0 := by
  refine lt_of_le_of_ne (signedAreaSum_counterClockwise ring) fun none => area ?_
  rcases sameWay_counterClockwise ring with same | same
  · rw [same, signedAreaSum_eq_neg_crossSum] at none
    exact neg_eq_zero.mp none
  · rw [same, signedAreaSum_reverse, signedAreaSum_eq_neg_crossSum, neg_neg] at none
    exact none

end Signs

/-- Where there are holes and boundaries, holes get areas of one sign and boundaries of the other;
no ring is changed but for its direction. Figures are made of rings that are normalized so. -/
theorem normalization_orients (ring : List (Point ℚ)) (count : Nat) (shift : Point ℚ)
    (inners outers : List (List (Point ℚ))) :
    signedAreaSum ring.reverse = -signedAreaSum ring ∧
    signedAreaSum (ring.rotate count) = signedAreaSum ring ∧
    signedAreaSum (ring.map (· + shift)) = signedAreaSum ring ∧
    signedAreaSum ring = -crossSum ring ∧
    (inners ≠ [] → outers ≠ [] →
      List.Forall₂ (fun given turned => SameWay given turned ∧ 0 ≤ signedAreaSum turned)
        inners (normalize inners outers).1 ∧
      List.Forall₂ (fun given turned => SameWay given turned ∧ signedAreaSum turned ≤ 0 ∧
          (crossSum given ≠ 0 → signedAreaSum turned < 0))
        outers (normalize inners outers).2) ∧
    ∀ (tags : Tags) (holes boundaries : List Ring),
      ((Figure.ofRings tags holes boundaries).inners = (normalize holes boundaries).1 ∧
        (Figure.ofRings tags holes boundaries).outers = (normalize holes boundaries).2) ∧
      List.Forall₂ SameWay holes (Figure.ofRings tags holes boundaries).inners ∧
        List.Forall₂ SameWay boundaries (Figure.ofRings tags holes boundaries).outers := by
  refine ⟨signedAreaSum_reverse ring, signedAreaSum_rotate ring count,
    signedAreaSum_shift ring shift, signedAreaSum_eq_neg_crossSum ring, ?_, ?_⟩
  · intro some_inner some_outer
    rw [normalize_eq inners outers some_inner some_outer, List.forall₂_map_right_iff,
      List.forall₂_map_right_iff, List.forall₂_same, List.forall₂_same]
    exact ⟨fun hole _ => ⟨sameWay_clockwise hole, signedAreaSum_clockwise hole⟩,
      fun outer _ => ⟨sameWay_counterClockwise outer, signedAreaSum_counterClockwise outer,
        signedAreaSum_counterClockwise_neg outer⟩⟩
  · intro tags holes boundaries
    exact ⟨⟨rfl, rfl⟩, sameWay_normalize holes boundaries⟩

def plot : List (Point ℚ) := [⟨0, 0⟩, ⟨0, 10⟩, ⟨10, 10⟩, ⟨10, 0⟩]

def pond : List (Point ℚ) := [⟨2, 2⟩, ⟨4, 2⟩, ⟨4, 4⟩, ⟨2, 4⟩, ⟨2, 2⟩]

theorem pond_oriented :
    signedAreaSum pond = -8 ∧ signedAreaSum plot = 200 ∧ [pond] ≠ [] ∧ [plot] ≠ [] ∧
    List.Forall₂ (fun given turned => SameWay given turned ∧ 0 ≤ signedAreaSum turned)
      [pond] (normalize [pond] [plot]).1 ∧
    List.Forall₂ (fun given turned => SameWay given turned ∧ signedAreaSum turned ≤ 0 ∧
        (crossSum given ≠ 0 → signedAreaSum turned < 0))
      [plot] (normalize [pond] [plot]).2 := by
  have hole : signedAreaSum pond = -8 := by
    norm_num [pond, signedAreaSum, sum, turns, steps, areaTerm]
  have boundary : signedAreaSum plot = 200 := by
    norm_num [plot, signedAreaSum, sum, turns, steps, areaTerm]
  have oriented := (normalization_orients pond 1 ⟨1, 2⟩ [pond] [plot]).2.2.2.2.1
    (List.cons_ne_nil _ _) (List.cons_ne_nil _ _)
  exact ⟨hole, boundary, List.cons_ne_nil _ _, List.cons_ne_nil _ _, oriented⟩

end Cartograph.Ring
