import Cartograph.Proofs.Figure.Area
import Cartograph.Proofs.Number.Rounding

/-! The direction in which rings of doubles turn. Around the other way the same area is added up
in another order, so both sums may round to the same side of zero, and normalization then turns a
ring around each time. It settles where the area is larger than what rounding can add to it. -/

namespace Cartograph

open Number

def Point.value (p : Point Float) : Point ℚ := ⟨Number.value p.x, Number.value p.y⟩

/-- Far enough from the largest doubles for products and sums of coordinates. -/
structure Point.IsModerate (p : Point Float) : Prop where
  finite_x : p.x.isFinite = true
  finite_y : p.y.isFinite = true
  x_le : |p.value.x| ≤ 10 ^ 100
  y_le : |p.value.y| ≤ 10 ^ 100

namespace Ring

def values (ring : Ring) : List (Point ℚ) := ring.map Point.value

section Sums

def unsigned (terms : List ℚ) : ℚ := (terms.map fun term => |term|).sum

@[simp] theorem unsigned_nil : unsigned [] = 0 := rfl

@[simp] theorem unsigned_cons (term : ℚ) (rest : List ℚ) :
    unsigned (term :: rest) = |term| + unsigned rest := List.sum_cons

theorem unsigned_nonneg (terms : List ℚ) : 0 ≤ unsigned terms :=
  List.sum_nonneg (by simp)

theorem abs_sum_le (terms : List ℚ) : |terms.sum| ≤ unsigned terms := by
  simpa [unsigned] using (terms : Multiset ℚ).abs_sum_le_sum_abs

theorem count_mul_roundoff (count : Nat) (short : count ≤ 2 ^ 51) :
    2 * count * roundoff ≤ 1 / 2 := by
  have cast : (count : ℚ) ≤ 2 ^ 51 := by exact_mod_cast short
  have unit : roundoff = 1 / 2 ^ 53 := by norm_num [roundoff]
  rw [unit]
  linarith

theorem abs_add_error (computed sum term total part : ℚ) (whole : |sum| ≤ total)
    (near : |computed - sum| ≤ part * total) (part_nonneg : 0 ≤ part) :
    |computed + term| ≤ (1 + part) * (total + |term|) := by
  have split : computed + term = (computed - sum) + (sum + term) := by ring
  have scaled : part * total ≤ part * (total + |term|) :=
    mul_le_mul_of_nonneg_left (by linarith [abs_nonneg term]) part_nonneg
  calc |computed + term| ≤ |computed - sum| + |sum + term| := by
        rw [split]
        exact abs_add_le _ _
    _ ≤ part * (total + |term|) + (total + |term|) := by linarith [abs_add_le sum term]
    _ = (1 + part) * (total + |term|) := by ring

theorem add_error (computed sum term total part next : ℚ) (whole : |sum| ≤ total)
    (near : |computed - sum| ≤ part * total) (part_nonneg : 0 ≤ part) (part_le : part ≤ 1 / 2)
    (rounded : |next - (computed + term)| ≤ roundoff * |computed + term|) :
    |next - (sum + term)| ≤ (part + 2 * roundoff) * (total + |term|) := by
  have unit := roundoff_pos.le
  have all_nonneg : 0 ≤ total + |term| := add_nonneg ((abs_nonneg _).trans whole) (abs_nonneg _)
  have split : next - (sum + term) = (next - (computed + term)) + (computed - sum) := by ring
  have double : |computed + term| ≤ 2 * (total + |term|) := by
    apply (abs_add_error computed sum term total part whole near part_nonneg).trans
    exact mul_le_mul_of_nonneg_right (by linarith) all_nonneg
  calc |next - (sum + term)| ≤ |next - (computed + term)| + |computed - sum| := by
        rw [split]
        exact abs_add_le _ _
    _ ≤ roundoff * (2 * (total + |term|)) + part * (total + |term|) := by
        apply add_le_add
        · exact rounded.trans (mul_le_mul_of_nonneg_left double unit)
        · exact near.trans (mul_le_mul_of_nonneg_left (by linarith [abs_nonneg term]) part_nonneg)
    _ = (part + 2 * roundoff) * (total + |term|) := by ring

theorem sum_near (terms : List Float) (short : terms.length ≤ 2 ^ 51)
    (finite : ∀ term ∈ terms, term.isFinite = true)
    (room : 2 * unsigned (terms.map value) ≤ largest) :
    (sum terms).isFinite = true ∧
      |value (sum terms) - (terms.map value).sum| ≤
        2 * terms.length * roundoff * unsigned (terms.map value) := by
  induction terms using List.reverseRecOn with
  | nil =>
    have zero : value (sum []) = 0 := rfl
    exact ⟨by decide, by rw [zero]; simp⟩
  | append_singleton terms term ih =>
    rw [List.length_append, List.length_singleton] at short
    have more : unsigned ((terms ++ [term]).map value) =
        unsigned (terms.map value) + |value term| := by simp [unsigned]
    have total : ((terms ++ [term]).map value).sum = (terms.map value).sum + value term := by simp
    have added : sum (terms ++ [term]) = sum terms + term := List.foldl_concat _ _ _ _
    rw [more] at room
    have sign := abs_nonneg (value term)
    obtain ⟨finite_sum, near⟩ := ih (by omega) (fun t member => finite t (by simp [member]))
      (by linarith)
    have part_le := count_mul_roundoff terms.length (by omega)
    have part_nonneg : 0 ≤ 2 * terms.length * roundoff := by
      have := roundoff_pos
      positivity
    have whole := abs_sum_le (terms.map value)
    have double : |value (sum terms) + value term| ≤ largest := by
      have size := abs_add_error _ _ (value term) _ _ whole near part_nonneg
      have all_nonneg := add_nonneg (unsigned_nonneg (terms.map value)) sign
      exact (size.trans (mul_le_mul_of_nonneg_right (by linarith) all_nonneg)).trans room
    obtain ⟨finite_next, rounded⟩ := value_add _ term finite_sum (finite term (by simp)) double
    rw [more, total, added, List.length_append, List.length_singleton]
    refine ⟨finite_next, ?_⟩
    apply (add_error _ _ _ _ _ _ whole near part_nonneg part_le rounded).trans_eq
    push_cast
    ring

end Sums

section Edges

def areaOver (edge : Point Float × Point Float) : ℚ := areaTerm (edge.map Point.value Point.value)

theorem mul_error (x y width height product : ℚ) (first : |x - width| ≤ roundoff * |width|)
    (second : |y - height| ≤ roundoff * |height|)
    (rounded : |product - x * y| ≤ roundoff * |x * y| + underflow) :
    |product - width * height| ≤ 4 * roundoff * |width * height| + underflow := by
  have unit := roundoff_pos.le
  have unit_le := roundoff_le
  have area_nonneg := abs_nonneg (width * height)
  have y_le : |y| ≤ (1 + roundoff) * |height| := by
    have := abs_sub_abs_le_abs_sub y height
    linarith
  have shifted : |x * y - width * height| ≤ (2 * roundoff + roundoff ^ 2) * |width * height| := by
    have split : x * y - width * height = (x - width) * y + width * (y - height) := by ring
    calc |x * y - width * height| ≤ |x - width| * |y| + |width| * |y - height| := by
          rw [split, ← abs_mul, ← abs_mul]
          exact abs_add_le _ _
      _ ≤ roundoff * |width| * ((1 + roundoff) * |height|) + |width| * (roundoff * |height|) := by
          gcongr
      _ = (2 * roundoff + roundoff ^ 2) * |width * height| := by
          rw [abs_mul]
          ring
  have square : roundoff ^ 2 ≤ roundoff / 8 := by
    rw [sq]
    linarith [mul_le_mul_of_nonneg_left unit_le unit]
  have size : |x * y| ≤ 3 / 2 * |width * height| := by
    have := abs_sub_abs_le_abs_sub (x * y) (width * height)
    have : (2 * roundoff + roundoff ^ 2) * |width * height| ≤ 1 / 2 * |width * height| :=
      mul_le_mul_of_nonneg_right (by linarith) area_nonneg
    linarith
  have part : (2 * roundoff + roundoff ^ 2) * |width * height| ≤
      5 / 2 * roundoff * |width * height| :=
    mul_le_mul_of_nonneg_right (by linarith) area_nonneg
  have rounding : roundoff * |x * y| ≤ 3 / 2 * roundoff * |width * height| := by
    linarith [mul_le_mul_of_nonneg_left size unit]
  have split : product - width * height = (product - x * y) + (x * y - width * height) := by ring
  calc |product - width * height| ≤ |product - x * y| + |x * y - width * height| := by
        rw [split]
        exact abs_add_le _ _
    _ ≤ 4 * roundoff * |width * height| + underflow := by linarith

theorem abs_le_of_near (x target bound : ℚ) (near : |x - target| ≤ roundoff * |target|)
    (le : |target| ≤ bound) : |x| ≤ 2 * bound := by
  have := abs_sub_abs_le_abs_sub x target
  linarith [roundoff_mul_le target]

theorem areaTerm_near (edge : Point Float × Point Float) (start : edge.1.IsModerate)
    (finish : edge.2.IsModerate) :
    (areaTerm edge).isFinite = true ∧ |areaOver edge| ≤ 4 * 10 ^ 200 ∧
      |value (areaTerm edge) - areaOver edge| ≤ 4 * roundoff * |areaOver edge| + underflow := by
  obtain ⟨p, q⟩ := edge
  obtain ⟨finite_x, finite_y, x_le, y_le⟩ := start
  obtain ⟨finite_x', finite_y', x_le', y_le'⟩ := finish
  have width_le : |value q.x - value p.x| ≤ 2 * 10 ^ 100 := by
    apply (abs_sub (value q.x) (value p.x)).trans
    exact (add_le_add x_le' x_le).trans_eq (by ring)
  have height_le : |value q.y + value p.y| ≤ 2 * 10 ^ 100 := by
    apply (abs_add_le (value q.y) (value p.y)).trans
    exact (add_le_add y_le' y_le).trans_eq (by ring)
  have product : areaOver (p, q) = (value q.x - value p.x) * (value q.y + value p.y) := rfl
  have area_le : |areaOver (p, q)| ≤ 4 * 10 ^ 200 := by
    rw [product, abs_mul]
    apply (mul_le_mul width_le height_le (abs_nonneg _) (by norm_num)).trans_eq
    norm_num
  obtain ⟨finite_width, width⟩ := value_sub q.x p.x finite_x' finite_x
    (width_le.trans (by norm_num [largest]))
  obtain ⟨finite_height, height⟩ := value_add q.y p.y finite_y' finite_y
    (height_le.trans (by norm_num [largest]))
  have room : |value (q.x - p.x) * value (q.y + p.y)| ≤ largest := by
    have width_le' := abs_le_of_near _ _ _ width width_le
    have height_le' := abs_le_of_near _ _ _ height height_le
    rw [abs_mul]
    apply (mul_le_mul width_le' height_le' (abs_nonneg _) (by norm_num)).trans
    norm_num [largest]
  obtain ⟨finite, rounded⟩ := value_mul _ _ finite_width finite_height room
  exact ⟨finite, area_le, mul_error _ _ _ _ _ width height rounded⟩

section Loop

variable (edges : List (Point Float × Point Float))
  (moderate : ∀ edge ∈ edges, edge.1.IsModerate ∧ edge.2.IsModerate)

include moderate

theorem edges_near :
    |((edges.map areaTerm).map value).sum - (edges.map areaOver).sum| ≤
      4 * roundoff * unsigned (edges.map areaOver) + edges.length * underflow := by
  induction edges with
  | nil => simp
  | cons edge rest ih =>
    obtain ⟨both, others⟩ := List.forall_mem_cons.mp moderate
    have first := (areaTerm_near edge both.1 both.2).2.2
    have later := ih others
    simp only [List.map_cons, List.sum_cons, List.length_cons, unsigned_cons] at later ⊢
    rw [add_sub_add_comm]
    apply (abs_add_le _ _).trans
    push_cast
    linarith

theorem unsigned_edges_le :
    unsigned ((edges.map areaTerm).map value) ≤
      2 * unsigned (edges.map areaOver) + edges.length * underflow := by
  induction edges with
  | nil => simp
  | cons edge rest ih =>
    obtain ⟨both, others⟩ := List.forall_mem_cons.mp moderate
    have near := (areaTerm_near edge both.1 both.2).2.2
    have size := abs_sub_abs_le_abs_sub (value (areaTerm edge)) (areaOver edge)
    have part : 4 * roundoff * |areaOver edge| ≤ |areaOver edge| :=
      mul_le_of_le_one_left (abs_nonneg _) (by linarith [roundoff_le])
    have later := ih others
    simp only [List.map_cons, List.length_cons, unsigned_cons] at later ⊢
    push_cast
    linarith

theorem unsigned_areas_le : unsigned (edges.map areaOver) ≤ edges.length * (4 * 10 ^ 200) := by
  induction edges with
  | nil => simp
  | cons edge rest ih =>
    obtain ⟨both, others⟩ := List.forall_mem_cons.mp moderate
    have first := (areaTerm_near edge both.1 both.2).2.1
    have later := ih others
    simp only [List.map_cons, List.length_cons, unsigned_cons] at later ⊢
    push_cast
    linarith

variable (short : edges.length ≤ 2 ^ 51)

include short

theorem unsigned_edges_room : 2 * unsigned ((edges.map areaTerm).map value) ≤ largest := by
  have total := unsigned_edges_le edges moderate
  have areas := unsigned_areas_le edges moderate
  have count : (edges.length : ℚ) ≤ 2 ^ 51 := by exact_mod_cast short
  have last : (edges.length : ℚ) * underflow ≤ 2 ^ 51 * 1 :=
    mul_le_mul count underflow_le underflow_pos.le (by norm_num)
  have most : largest = 10 ^ 250 := rfl
  rw [most]
  linarith

theorem sum_edges_near :
    (sum (edges.map areaTerm)).isFinite = true ∧
      |value (sum (edges.map areaTerm)) - ((edges.map areaTerm).map value).sum| ≤
        4 * edges.length * roundoff * unsigned (edges.map areaOver) +
          edges.length * underflow := by
  have finite : ∀ term ∈ edges.map areaTerm, term.isFinite = true := by
    intro term member
    obtain ⟨edge, inside, rfl⟩ := List.mem_map.mp member
    exact (areaTerm_near edge (moderate edge inside).1 (moderate edge inside).2).1
  obtain ⟨finite_sum, near⟩ := sum_near (edges.map areaTerm) (by rwa [List.length_map]) finite
    (unsigned_edges_room edges moderate short)
  have part_nonneg : 0 ≤ 2 * (edges.length : ℚ) * roundoff := by
    have := roundoff_pos
    positivity
  have total := mul_le_mul_of_nonneg_left (unsigned_edges_le edges moderate) part_nonneg
  have tiny : 2 * edges.length * roundoff * (edges.length * underflow) ≤
      edges.length * underflow := by
    have := underflow_pos
    exact mul_le_of_le_one_left (by positivity)
      ((count_mul_roundoff edges.length short).trans (by norm_num))
  rw [List.length_map] at near
  exact ⟨finite_sum, by linarith⟩

theorem area_near :
    (sum (edges.map areaTerm)).isFinite = true ∧
      |value (sum (edges.map areaTerm)) - (edges.map areaOver).sum| ≤
        (edges.length + 1) * (4 * roundoff * unsigned (edges.map areaOver) + 2 * underflow) := by
  obtain ⟨finite, added⟩ := sum_edges_near edges moderate short
  have rounded := edges_near edges moderate
  have least := underflow_pos
  refine ⟨finite, ?_⟩
  calc |value (sum (edges.map areaTerm)) - (edges.map areaOver).sum|
      ≤ |value (sum (edges.map areaTerm)) - ((edges.map areaTerm).map value).sum| +
          |((edges.map areaTerm).map value).sum - (edges.map areaOver).sum| := abs_sub_le _ _ _
    _ ≤ (edges.length + 1) * (4 * roundoff * unsigned (edges.map areaOver) + 2 * underflow) := by
        linarith

end Loop

end Edges

/-- Twice the area between the edges and the axis, whichever way they lead. -/
def unsignedArea (ring : List (Point ℚ)) : ℚ := unsigned ((turns ring).map areaTerm)

/-- What rounding can add to twice the area of a ring. -/
def roundingBound (ring : List (Point ℚ)) : ℚ :=
  (ring.length + 1) * (4 * roundoff * unsignedArea ring + 2 * underflow)

structure HasClearArea (ring : Ring) : Prop where
  short : ring.length ≤ 2 ^ 51
  moderate : ∀ p ∈ ring, p.IsModerate
  clear : roundingBound (values ring) < |signedAreaSum (values ring)|

theorem unsignedArea_reverse (ring : List (Point ℚ)) :
    unsignedArea ring.reverse = unsignedArea ring := by
  have same : (turns ring.reverse).map (fun edge => |areaTerm edge|) |>.Perm
      ((turns ring).map fun edge => |areaTerm edge|) := by
    apply ((turns_reverse ring).map _).trans
    rw [List.map_map]
    exact .of_eq (List.map_congr_left fun edge _ => by
      rw [Function.comp, areaTerm_swap, abs_neg])
  rw [unsignedArea, unsignedArea, unsigned, unsigned, List.map_map, List.map_map]
  exact same.sum_eq

theorem roundingBound_nonneg (ring : List (Point ℚ)) : 0 ≤ roundingBound ring := by
  have := unsigned_nonneg ((turns ring).map areaTerm)
  have := roundoff_pos
  have := underflow_pos
  unfold roundingBound unsignedArea
  positivity

theorem areas_eq (ring : Ring) :
    (turns ring).map areaOver = (turns (values ring)).map areaTerm := by
  rw [values, turns_map, List.map_map]
  rfl

theorem signedAreaSum_near (ring : Ring) (short : ring.length ≤ 2 ^ 51)
    (moderate : ∀ p ∈ ring, p.IsModerate) :
    (signedAreaSum ring).isFinite = true ∧
      |value (signedAreaSum ring) - signedAreaSum (values ring)| ≤
        roundingBound (values ring) := by
  have ends : ∀ edge ∈ turns ring, edge.1.IsModerate ∧ edge.2.IsModerate := fun edge member =>
    (mem_of_mem_turns member).imp (moderate edge.1) (moderate edge.2)
  have near := area_near (turns ring) ends (by rwa [length_turns])
  rw [areas_eq, length_turns, ← sum_eq] at near
  rw [roundingBound, values, List.length_map]
  exact near

namespace HasClearArea

variable {ring : Ring} (clear : HasClearArea ring)

include clear

theorem isClockwise_iff : isClockwise ring = true ↔ 0 < signedAreaSum (values ring) := by
  obtain ⟨finite, near⟩ := signedAreaSum_near ring clear.short clear.moderate
  have room := near.trans_lt clear.clear
  have counts : isClockwise ring = true ↔ 0 ≤ value (signedAreaSum ring) :=
    decide_eq_true_iff.trans (nonneg_iff _ finite)
  rw [counts]
  rcases lt_or_ge 0 (signedAreaSum (values ring)) with positive | other
  · rw [abs_of_pos positive, abs_lt] at room
    exact iff_of_true (by linarith) positive
  · rw [abs_of_nonpos other, abs_lt] at room
    exact iff_of_false (by linarith) other.not_gt

theorem reverse : HasClearArea ring.reverse where
  short := by rw [List.length_reverse]; exact clear.short
  moderate := fun p member => clear.moderate p (List.mem_reverse.mp member)
  clear := by
    rw [values, List.map_reverse, signedAreaSum_reverse, abs_neg, roundingBound,
      unsignedArea_reverse, List.length_reverse]
    exact clear.clear

theorem isClockwise_reverse : isClockwise ring.reverse = !isClockwise ring := by
  have area : signedAreaSum (values ring.reverse) = -signedAreaSum (values ring) := by
    rw [values, List.map_reverse, signedAreaSum_reverse]
    rfl
  have some_area : signedAreaSum (values ring) ≠ 0 :=
    abs_pos.mp ((roundingBound_nonneg _).trans_lt clear.clear)
  rw [Bool.eq_iff_iff, clear.reverse.isClockwise_iff, area, Bool.not_eq_true', ← Bool.not_eq_true,
    clear.isClockwise_iff, neg_pos, not_lt, lt_iff_le_and_ne]
  exact and_iff_left some_area

theorem clockwise_settles : clockwise (clockwise ring) = clockwise ring := by
  rw [clockwise_settles_iff, clear.isClockwise_reverse]
  cases isClockwise ring <;> simp

theorem counterClockwise_settles :
    counterClockwise (counterClockwise ring) = counterClockwise ring := by
  rw [counterClockwise_settles_iff, clear.isClockwise_reverse]
  cases isClockwise ring <;> simp

end HasClearArea

/-- Shapes of one kind of rings are left alone, and others settle where all their rings do. -/
theorem normalize_settles_iff (inners outers : List Ring) :
    normalize (normalize inners outers).1 (normalize inners outers).2 = normalize inners outers ↔
      inners = [] ∨ outers = [] ∨ (∀ hole ∈ inners, clockwise (clockwise hole) = clockwise hole) ∧
        ∀ outer ∈ outers, counterClockwise (counterClockwise outer) = counterClockwise outer := by
  unfold normalize normalizeBy
  by_cases one_kind : (inners.isEmpty || outers.isEmpty) = true
  · have empty : inners = [] ∨ outers = [] := by simpa using one_kind
    simp only [one_kind, if_true, true_iff]
    exact empty.imp_right .inl
  · have both : inners ≠ [] ∧ outers ≠ [] := by simpa using one_kind
    have kept : ((inners.map (clockwiseBy id)).isEmpty ||
        (outers.map (counterClockwiseBy id)).isEmpty) = false := by simpa using both
    simp only [one_kind, kept, if_false, Bool.false_eq_true, List.map_map, Prod.mk.injEq,
      List.map_inj_left, both, false_or]
    exact Iff.rfl

/-- Normalization of doubles settles unless both sums have the wrong sign, so it does where the
area is clear; without rounding, it does but for boundaries without area. -/
theorem normalization_settles (ring : Ring) (tags : Tags) (inners outers : List Ring) :
    (clockwise (clockwise ring) = clockwise ring ↔
      isClockwise ring = true ∨ isClockwise ring.reverse = true ∨ ring.reverse = ring) ∧
    (counterClockwise (counterClockwise ring) = counterClockwise ring ↔
      isClockwise ring = false ∨ isClockwise ring.reverse = false ∨ ring.reverse = ring) ∧
    (HasClearArea ring → clockwise (clockwise ring) = clockwise ring ∧
      counterClockwise (counterClockwise ring) = counterClockwise ring) ∧
    (Figure.ofRings tags (Figure.ofRings tags inners outers).inners
        (Figure.ofRings tags inners outers).outers = Figure.ofRings tags inners outers ↔
      inners = [] ∨ outers = [] ∨ (∀ hole ∈ inners, clockwise (clockwise hole) = clockwise hole) ∧
        ∀ outer ∈ outers, counterClockwise (counterClockwise outer) = counterClockwise outer) ∧
    ∀ places : List (Point ℚ), clockwise (clockwise places) = clockwise places ∧
      (counterClockwise (counterClockwise places) = counterClockwise places ↔
        signedAreaSum places ≠ 0 ∨ places.reverse = places) := by
  refine ⟨clockwise_settles_iff ring, counterClockwise_settles_iff ring, fun clear =>
    ⟨clear.clockwise_settles, clear.counterClockwise_settles⟩, ?_, fun places =>
    ⟨clockwise_settles places, counterClockwise_settles_of_area_iff places⟩⟩
  rw [← normalize_settles_iff, Prod.ext_iff]
  exact ⟨fun same => ⟨congrArg Figure.inners same, congrArg Figure.outers same⟩, fun same =>
    congrArg₂ (Figure.mk tags) same.1 same.2⟩

def square : Ring := [⟨0, 0⟩, ⟨10, 0⟩, ⟨10, 10⟩, ⟨0, 10⟩]

theorem square_settles :
    HasClearArea square ∧ clockwise (clockwise square) = clockwise square ∧
      counterClockwise (counterClockwise square) = counterClockwise square := by
  have zero : value 0 = 0 := rfl
  have ten : value 10 = 10 := by decide +kernel
  have places : values square = [⟨0, 0⟩, ⟨10, 0⟩, ⟨10, 10⟩, ⟨0, 10⟩] := by
    simp [values, square, Point.value, zero, ten]
  have moderate : ∀ x y : Float, x = 0 ∨ x = 10 → y = 0 ∨ y = 10 →
      (⟨x, y⟩ : Point Float).IsModerate := by
    rintro x y (rfl | rfl) (rfl | rfl) <;>
      exact ⟨rfl, rfl, by norm_num [Point.value, zero, ten], by norm_num [Point.value, zero, ten]⟩
  have signed : signedAreaSum (values square) = -200 := by
    rw [places]
    norm_num [signedAreaSum, sum, turns, steps, areaTerm]
  have unsigned : unsignedArea (values square) = 200 := by
    rw [places]
    norm_num [unsignedArea, Ring.unsigned, turns, steps, areaTerm]
  have clear : HasClearArea square := by
    refine ⟨by decide, ?_, ?_⟩
    · simp [square, moderate]
    · have unit : roundoff ≤ 1 / 100 := by norm_num [roundoff]
      have length : (values square).length = 4 := rfl
      rw [roundingBound, signed, unsigned, length]
      norm_num
      linarith [underflow_le]
  exact ⟨clear, (normalization_settles square ⟨[]⟩ [] []).2.2.1 clear⟩

def diagonal : Ring := [⟨1, 1⟩, ⟨2, 2⟩, ⟨3, 3⟩]

def crossing : Ring := [⟨0.8, 0.9⟩, ⟨0.9, 0.6⟩, ⟨0.1, 0.9⟩, ⟨0.4, 0.6⟩, ⟨0.8, 0.9⟩]

def turning : Figure := Figure.ofRings ⟨[]⟩ [crossing] [diagonal]

theorem turned_each_time :
    counterClockwise (counterClockwise diagonal) ≠ counterClockwise diagonal ∧
    clockwise (clockwise crossing) ≠ clockwise crossing ∧
    Figure.ofRings turning.tags turning.inners turning.outers ≠ turning := by
  have diagonal_turned : diagonal.reverse ≠ diagonal := fun same =>
    absurd (congrArg (List.map Point.x) same) (by decide +kernel)
  have crossing_turned : crossing.reverse ≠ crossing := fun same =>
    absurd (congrArg (List.map Point.x) same) (by decide +kernel)
  have diagonal_counts : isClockwise diagonal = true ∧ isClockwise diagonal.reverse = true := by
    decide +kernel
  have crossing_counts : isClockwise crossing = false ∧ isClockwise crossing.reverse = false := by
    decide +kernel
  have boundary : counterClockwise (counterClockwise diagonal) ≠ counterClockwise diagonal := by
    rw [Ne, counterClockwise_settles_iff]
    simp [diagonal_turned, diagonal_counts]
  refine ⟨boundary, ?_, fun same => boundary ?_⟩
  · rw [Ne, clockwise_settles_iff]
    simp [crossing_turned, crossing_counts]
  · exact List.singleton_inj.mp (congrArg Figure.outers same)

end Ring

end Cartograph
