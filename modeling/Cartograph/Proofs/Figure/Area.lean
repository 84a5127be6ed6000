import Mathlib
import Cartograph.Figure.Basic

/-! Areas of rings. Turned around, a ring has the same edges the other way round and so, without
rounding, the opposite area. -/

namespace Cartograph.Ring

section Neighbours

variable {β : Type}

theorem steps_append (before : List β) (a : β) (after : List β) :
    steps (before ++ a :: after) = steps (before ++ [a]) ++ steps (a :: after) := by
  induction before with
  | nil => rfl
  | cons b rest ih =>
    cases rest with
    | nil => rfl
    | cons c others => exact congrArg ((b, c) :: ·) ih

theorem steps_reverse (line : List β) :
    steps line.reverse = ((steps line).map Prod.swap).reverse := by
  induction line with
  | nil => rfl
  | cons a rest ih =>
    cases rest with
    | nil => rfl
    | cons b others =>
      rw [List.reverse_cons] at ih
      rw [List.reverse_cons, List.reverse_cons, List.append_assoc, List.singleton_append,
        steps_append, ih]
      simp [steps]

theorem turns_append_singleton (ring : List β) (a : β) :
    (turns (ring ++ [a])).Perm (turns (a :: ring)) := by
  cases ring with
  | nil => exact .refl _
  | cons b rest =>
    have around : turns (b :: rest ++ [a]) = steps (b :: rest ++ [a]) ++ [(a, b)] := by
      change steps (b :: (rest ++ [a]) ++ [b]) = _
      rw [List.cons_append, List.append_assoc, List.singleton_append, ← List.cons_append,
        steps_append]
      rfl
    rw [around]
    exact List.perm_append_singleton _ _

theorem turns_reverse (ring : List β) :
    (turns ring.reverse).Perm ((turns ring).map Prod.swap) := by
  cases ring with
  | nil => exact .nil
  | cons a rest =>
    have loop : turns (a :: rest.reverse) = ((turns (a :: rest)).map Prod.swap).reverse := by
      rw [turns, turns, ← steps_reverse]
      simp
    rw [List.reverse_cons]
    exact (turns_append_singleton _ a).trans (loop ▸ List.reverse_perm _)

theorem steps_map {γ : Type} (f : β → γ) (line : List β) :
    steps (line.map f) = (steps line).map (Prod.map f f) := by
  induction line with
  | nil => rfl
  | cons a rest ih =>
    cases rest with
    | nil => rfl
    | cons b others => exact congrArg ((f a, f b) :: ·) ih

theorem turns_map {γ : Type} (f : β → γ) (ring : List β) :
    turns (ring.map f) = (turns ring).map (Prod.map f f) := by
  cases ring with
  | nil => rfl
  | cons a rest =>
    rw [turns, ← steps_map, List.map_append, List.map_cons]
    rfl

theorem steps_eq_zip (line : List β) : steps line = line.zip line.tail := by
  induction line with
  | nil => rfl
  | cons a rest ih =>
    cases rest with
    | nil => rfl
    | cons b others => exact congrArg ((a, b) :: ·) ih

theorem turns_eq_zip (ring : List β) : turns ring = ring.zip (ring.rotate 1) := by
  cases ring with
  | nil => rfl
  | cons a rest =>
    have around : (a :: rest ++ [a]).zip (rest ++ [a] ++ []) =
        (a :: rest).zip (rest ++ [a]) ++ [a].zip [] := List.zip_append (by simp)
    rw [turns, steps_eq_zip, List.rotate_cons_succ, List.rotate_zero]
    simpa using around

theorem mem_of_mem_steps {edge : β × β} {line : List β} (member : edge ∈ steps line) :
    edge.1 ∈ line ∧ edge.2 ∈ line := by
  induction line with
  | nil => cases member
  | cons a rest ih =>
    cases rest with
    | nil => cases member
    | cons b others =>
      rcases List.mem_cons.mp member with rfl | later
      · simp
      · exact (ih later).imp (List.mem_cons_of_mem a) (List.mem_cons_of_mem a)

theorem mem_of_mem_turns {edge : β × β} {ring : List β} (member : edge ∈ turns ring) :
    edge.1 ∈ ring ∧ edge.2 ∈ ring := by
  cases ring with
  | nil => cases member
  | cons a rest =>
    have ends := mem_of_mem_steps member
    simp only [List.mem_append, List.mem_cons, List.not_mem_nil, or_false] at ends ⊢
    tauto

theorem length_steps (line : List β) : (steps line).length = line.length - 1 := by
  rw [steps_eq_zip, List.length_zip, List.length_tail]
  exact min_eq_right (Nat.sub_le _ _)

theorem length_turns (ring : List β) : (turns ring).length = ring.length := by
  cases ring with
  | nil => rfl
  | cons a rest => simp [turns, length_steps]

end Neighbours

section Exact

variable {α : Type} [CommRing α]

theorem sum_eq (terms : List α) : sum terms = terms.sum := by
  rw [sum, neg_zero, List.sum_eq_foldl]

theorem areaTerm_swap (edge : Point α × Point α) : areaTerm edge.swap = -areaTerm edge := by
  obtain ⟨p, q⟩ := edge
  simp only [Prod.swap, areaTerm]
  ring

theorem signedAreaSum_reverse (ring : List (Point α)) :
    signedAreaSum ring.reverse = -signedAreaSum ring := by
  calc signedAreaSum ring.reverse
      = (((turns ring).map Prod.swap).map areaTerm).sum := by
        rw [signedAreaSum, sum_eq]
        exact ((turns_reverse ring).map areaTerm).sum_eq
    _ = (((turns ring).map areaTerm).map Neg.neg).sum := by
        rw [List.map_map, List.map_map]
        exact congrArg List.sum (List.map_congr_left fun edge _ => areaTerm_swap edge)
    _ = -signedAreaSum ring := by
        rw [signedAreaSum, sum_eq, List.sum_neg]

end Exact

section Winding

variable {α : Type} [Add α] [Sub α] [Mul α] [Neg α] [OfNat α 0] [LE α] [DecidableLE α]
  (ring : List (Point α))

theorem clockwise_eq : clockwise ring = if isClockwise ring then ring else ring.reverse := by
  rw [clockwise, clockwiseBy, List.map_id]

theorem counterClockwise_eq :
    counterClockwise ring = if isClockwise ring then ring.reverse else ring := by
  rw [counterClockwise, counterClockwiseBy, List.map_id]

section Places

variable {β : Type} (place : β → Point α)

theorem clockwiseBy_place (things : List β) :
    clockwise (things.map place) = (clockwiseBy place things).map place := by
  rw [clockwise_eq, clockwiseBy]
  split
  · rfl
  · exact List.map_reverse.symm

theorem counterClockwiseBy_place (things : List β) :
    counterClockwise (things.map place) = (counterClockwiseBy place things).map place := by
  rw [counterClockwise_eq, counterClockwiseBy]
  split
  · exact List.map_reverse.symm
  · rfl

theorem normalizeBy_place (inners outers : List (List β)) :
    normalize (inners.map (List.map place)) (outers.map (List.map place)) =
      (normalizeBy place inners outers).map (List.map (List.map place))
        (List.map (List.map place)) := by
  unfold normalize normalizeBy
  rw [List.isEmpty_map, List.isEmpty_map]
  split
  · rfl
  · have holes := List.map_congr_left fun hole (_ : hole ∈ inners) => clockwiseBy_place place hole
    have others := List.map_congr_left fun outer (_ : outer ∈ outers) =>
      counterClockwiseBy_place place outer
    rw [List.map_map, List.map_map, Prod.map, List.map_map, List.map_map]
    exact Prod.ext holes others

end Places

/-- A ring that is turned around is turned back if it counts as wrong that way too. -/
theorem clockwise_settles_iff :
    clockwise (clockwise ring) = clockwise ring ↔
      isClockwise ring = true ∨ isClockwise ring.reverse = true ∨ ring.reverse = ring := by
  by_cases right : isClockwise ring = true
  · simp [clockwise_eq, right]
  · by_cases turned : isClockwise ring.reverse = true
    · simp [clockwise_eq, right, turned]
    · simp [clockwise_eq, right, turned, eq_comm]

theorem counterClockwise_settles_iff :
    counterClockwise (counterClockwise ring) = counterClockwise ring ↔
      isClockwise ring = false ∨ isClockwise ring.reverse = false ∨ ring.reverse = ring := by
  by_cases wrong : isClockwise ring = true
  · by_cases turned : isClockwise ring.reverse = true
    · simp [counterClockwise_eq, wrong, turned, eq_comm]
    · simp [counterClockwise_eq, wrong, turned]
  · simp [counterClockwise_eq, wrong]

end Winding

section Settled

variable {α : Type} [CommRing α] [LinearOrder α] [IsStrictOrderedRing α] (ring : List (Point α))

omit [IsStrictOrderedRing α] in
theorem isClockwise_iff : isClockwise ring = true ↔ 0 ≤ signedAreaSum ring := decide_eq_true_iff

theorem isClockwise_reverse_iff :
    isClockwise ring.reverse = true ↔ signedAreaSum ring ≤ 0 := by
  rw [isClockwise_iff, signedAreaSum_reverse, neg_nonneg]

theorem clockwise_settles : clockwise (clockwise ring) = clockwise ring := by
  rw [clockwise_settles_iff, isClockwise_iff, isClockwise_reverse_iff]
  exact (le_total 0 (signedAreaSum ring)).imp_right .inl

/-- Both ways around, a ring without area counts as clockwise. -/
theorem counterClockwise_settles_of_area_iff :
    counterClockwise (counterClockwise ring) = counterClockwise ring ↔
      signedAreaSum ring ≠ 0 ∨ ring.reverse = ring := by
  rw [counterClockwise_settles_iff, ← Bool.not_eq_true, ← Bool.not_eq_true, isClockwise_iff,
    isClockwise_reverse_iff, not_le, not_le, ← or_assoc, ← ne_iff_lt_or_gt]

end Settled

end Cartograph.Ring
