import Mathlib
import Cartograph.Raster.Coverage

/-! Grown masks. A place of a grown mask is covered as much as the place of the mask that is covered
most in the disc around it. The values are written spot by spot, each to the places of its own disc:
a write never lowers a value, so that the largest one written stays. -/

namespace Cartograph.Coverage

def cover (mask : Coverage) (x y : Int) : Nat := (mask.at? x y).getD 0

def IsWithin (radius : Nat) (x y i j : Int) : Prop :=
  (x - i) * (x - i) + (y - j) * (y - j) ≤ (radius : Int) * radius

instance (radius : Nat) (x y i j : Int) : Decidable (IsWithin radius x y i j) :=
  inferInstanceAs (Decidable (_ ≤ _))

theorem isWithin_self (radius : Nat) (x y : Int) : IsWithin radius x y x y := by
  rw [IsWithin, sub_self, sub_self, mul_zero, add_zero]
  positivity

section Places

variable (mask : Coverage) (x y : Int)

theorem at_inside (inside : 0 ≤ x ∧ x < mask.width ∧ 0 ≤ y ∧ y < mask.height) :
    mask.cover x y = mask.value x.toNat y.toNat := by
  rw [cover, at?, if_pos inside, Option.getD_some]

theorem inside_of_cover (covered : 0 < mask.cover x y) :
    0 ≤ x ∧ x < mask.width ∧ 0 ≤ y ∧ y < mask.height := by
  by_contra outside
  rw [cover, at?, if_neg outside] at covered
  exact absurd covered (by decide)

theorem cover_le (bound : Nat) (values : ∀ i j, mask.value i j ≤ bound) :
    mask.cover x y ≤ bound := by
  unfold cover at?
  split
  · exact values _ _
  · exact Nat.zero_le bound

theorem mem_spots_iff (spot : Spot) :
    spot ∈ mask.spots ↔ 0 < spot.value ∧ mask.cover spot.x spot.y = spot.value := by
  obtain ⟨x, y, value⟩ := spot
  simp only [spots, List.mem_flatMap, List.mem_filter, List.mem_map, List.mem_range,
    decide_eq_true_eq]
  constructor
  · rintro ⟨j, row, ⟨i, column, same⟩, positive⟩
    cases same
    exact ⟨positive, at_inside mask i j (by omega)⟩
  · rintro ⟨positive, same⟩
    have inside := inside_of_cover mask x y (by omega)
    rw [at_inside mask x y inside] at same
    refine ⟨y.toNat, by omega, ⟨x.toNat, by omega, ?_⟩, positive⟩
    rw [same, Int.toNat_of_nonneg inside.1, Int.toNat_of_nonneg inside.2.2.1]

theorem inside_of_mem_spots (spot : Spot) (member : spot ∈ mask.spots) :
    0 ≤ spot.x ∧ spot.x < mask.width ∧ 0 ≤ spot.y ∧ spot.y < mask.height := by
  obtain ⟨positive, same⟩ := (mem_spots_iff mask spot).mp member
  exact inside_of_cover mask _ _ (same ▸ positive)

end Places

theorem IsWithin.abs_le {radius : Nat} {x y i j : Int} (near : IsWithin radius x y i j) :
    |x - i| ≤ radius ∧ |y - j| ≤ radius := by
  unfold IsWithin at near
  constructor
  · apply abs_le_of_sq_le_sq _ (Int.natCast_nonneg radius)
    nlinarith [mul_self_nonneg (y - j)]
  · apply abs_le_of_sq_le_sq _ (Int.natCast_nonneg radius)
    nlinarith [mul_self_nonneg (x - i)]

theorem mem_disc_iff (radius : Nat) (step : Point Int) :
    step ∈ disc radius ↔ IsWithin radius step.x step.y 0 0 := by
  obtain ⟨x, y⟩ := step
  have distance : IsWithin radius x y 0 0 ↔ x * x + y * y ≤ (radius : Int) * radius := by
    rw [IsWithin, sub_zero, sub_zero]
  simp only [disc, List.mem_filter, List.mem_flatMap, List.mem_map, List.mem_range,
    decide_eq_true_eq, distance]
  constructor
  · rintro ⟨-, near⟩
    exact near
  · intro near
    obtain ⟨column, row⟩ := (distance.mpr near).abs_le
    rw [sub_zero, abs_le] at column row
    exact ⟨⟨y, ⟨(y + radius).toNat, by omega, by omega⟩, x,
      ⟨(x + radius).toNat, by omega, by omega⟩, rfl⟩, near⟩

section Writes

/-- A step that never fails on arrays of a size, and that raises their values just so far that
what is written does not exceed them. -/
def Raises (size : Nat) (step : Array Nat → Option (Array Nat)) (written : Nat → Nat → Prop) :
    Prop :=
  ∀ cells : Array Nat, cells.size = size →
    ∃ raised, step cells = some raised ∧ raised.size = size ∧
      ∀ index bound, raised.getD index 0 ≤ bound ↔
        cells.getD index 0 ≤ bound ∧ ∀ value, written index value → value ≤ bound

theorem raises_raise (size place value : Nat) (inside : place < size) :
    Raises size (raise? place value) fun index written => index = place ∧ written = value := by
  intro cells whole
  subst whole
  refine ⟨cells.set place (max cells[place] value), dif_pos inside, Array.size_set _, ?_⟩
  intro index bound
  by_cases same : index = place
  · subst same
    simp [Array.getD_eq_getD_getElem?, inside]
  · simp [Array.getD_eq_getD_getElem?, same, Ne.symm same]

theorem Raises.foldlM {α : Type} {size : Nat} {write : Array Nat → α → Option (Array Nat)}
    {written : α → Nat → Nat → Prop} (items : List α)
    (steps : ∀ item ∈ items, Raises size (write · item) (written item)) :
    Raises size (items.foldlM write) fun index value =>
      ∃ item ∈ items, written item index value := by
  induction items with
  | nil =>
    intro cells whole
    exact ⟨cells, rfl, whole, by simp⟩
  | cons item rest ih =>
    rw [List.forall_mem_cons] at steps
    intro cells whole
    obtain ⟨first, (first_eq : write cells item = some first), first_size, first_le⟩ :=
      steps.1 cells whole
    obtain ⟨last, last_eq, last_size, last_le⟩ := ih steps.2 first first_size
    refine ⟨last, ?_, last_size, ?_⟩
    · change (item :: rest).foldlM write cells = some last
      rw [List.foldlM_cons, first_eq]
      exact last_eq
    · intro index bound
      rw [last_le, first_le, and_assoc]
      apply and_congr_right'
      constructor
      · rintro ⟨here, later⟩ value ⟨other, member, writes⟩
        rcases List.mem_cons.mp member with rfl | member
        · exact here value writes
        · exact later value ⟨other, member, writes⟩
      · intro all
        exact ⟨fun value writes => all value ⟨item, List.mem_cons_self, writes⟩,
          fun value ⟨other, member, writes⟩ =>
            all value ⟨other, List.mem_cons_of_mem _ member, writes⟩⟩

end Writes

section Indices

variable (width : Nat)

theorem index_lt {height x y : Int} (column : x < width) (row : y < height) :
    y * width + x < (width : Int) * height := by
  have rows := mul_le_mul_of_nonneg_right (Int.add_one_le_of_lt row) (Int.natCast_nonneg width)
  rw [add_mul, one_mul] at rows
  calc y * width + x < y * width + width := Int.add_lt_add_left column _
    _ ≤ height * width := rows
    _ = width * height := mul_comm height (width : Int)

theorem index_inj {x y i j : Int} (left : 0 ≤ x ∧ x < width)
    (right : 0 ≤ i ∧ i < width) (same : y * width + x = j * width + i) : x = i ∧ y = j := by
  have columns : x = i := calc
    x = (y * width + x) % width := by
      rw [add_comm, Int.add_mul_emod_self_right, Int.emod_eq_of_lt left.1 left.2]
    _ = (j * width + i) % width := by rw [same]
    _ = i := by rw [add_comm, Int.add_mul_emod_self_right, Int.emod_eq_of_lt right.1 right.2]
  have wide : (width : Int) ≠ 0 := by omega
  exact ⟨columns, mul_right_cancel₀ wide (by linarith)⟩

end Indices

section Grow

variable (mask : Coverage) (radius : Nat)

/-- The number of the place that a step from a spot leads to, in the rows of the grown mask. -/
def writtenIndex (spot : Spot) (step : Point Int) : Int :=
  (spot.y + radius + step.y) * (mask.width + 2 * radius : Nat) + (spot.x + radius + step.x)

theorem writtenIndex_inside (spot : Spot) (member : spot ∈ mask.spots) (step : Point Int)
    (column : |step.x| ≤ radius) (row : |step.y| ≤ radius) :
    0 ≤ spot.x + radius + step.x ∧ 0 ≤ spot.y + radius + step.y ∧
      mask.writtenIndex radius spot step <
        ((mask.width + 2 * radius) * (mask.height + 2 * radius) : Nat) := by
  obtain ⟨left, right, top, bottom⟩ := inside_of_mem_spots mask spot member
  rw [abs_le] at column row
  refine ⟨by omega, by omega, ?_⟩
  rw [Int.natCast_mul]
  exact index_lt _ (by omega) (by omega)

theorem raises_mark (spot : Spot) (member : spot ∈ mask.spots) (step : Point Int)
    (near : step ∈ disc radius) :
    Raises ((mask.width + 2 * radius) * (mask.height + 2 * radius))
      (spot.mark? radius (mask.width + 2 * radius) · step)
      fun index value => (index : Int) = mask.writtenIndex radius spot step ∧
        value = spot.value := by
  obtain ⟨column, row⟩ := ((mem_disc_iff radius step).mp near).abs_le
  rw [sub_zero] at column row
  obtain ⟨left, top, inside⟩ := writtenIndex_inside mask radius spot member step column row
  obtain ⟨x, x_eq⟩ := Int.eq_ofNat_of_zero_le left
  obtain ⟨y, y_eq⟩ := Int.eq_ofNat_of_zero_le top
  have place : mask.writtenIndex radius spot step =
      (y * (mask.width + 2 * radius) + x : Nat) := by
    rw [writtenIndex, x_eq, y_eq]
    push_cast
    ring
  have marked (cells : Array Nat) : spot.mark? radius (mask.width + 2 * radius) cells step =
      raise? (y * (mask.width + 2 * radius) + x) spot.value cells := by
    rw [Spot.mark?, x_eq, y_eq]
    rfl
  rw [place] at inside
  simp only [marked, place, Int.natCast_inj]
  exact raises_raise _ _ spot.value (by exact_mod_cast inside)

theorem spots_written (positive : radius ≠ 0) :
    ∃ cells, mask.grow? radius =
        some (ofCells (mask.width + 2 * radius) (mask.height + 2 * radius) cells) ∧
      ∀ index bound, cells.getD index 0 ≤ bound ↔
        ∀ spot ∈ mask.spots, ∀ step ∈ disc radius,
          (index : Int) = mask.writtenIndex radius spot step → spot.value ≤ bound := by
  have writes := Raises.foldlM mask.spots fun spot member =>
    Raises.foldlM (disc radius) fun step near => raises_mark mask radius spot member step near
  obtain ⟨cells, cells_eq, -, most⟩ := writes (Array.replicate _ 0) Array.size_replicate
  refine ⟨cells, ?_, ?_⟩
  · rw [grow?, if_neg positive]
    exact congrArg (Option.map _) cells_eq
  · intro index bound
    have blank : (Array.replicate ((mask.width + 2 * radius) * (mask.height + 2 * radius)) 0).getD
        index 0 ≤ bound := by
      rw [Array.getD_eq_getD_getElem?, Array.getElem?_replicate]
      split <;> exact Nat.zero_le bound
    rw [most, and_iff_right blank]
    constructor
    · intro all spot member step near same
      exact all spot.value ⟨spot, member, step, near, same, rfl⟩
    · rintro all value ⟨spot, member, step, near, same, rfl⟩
      exact all spot member step near same

theorem written_le_iff (x y bound : Nat) (inside : x < mask.width + 2 * radius) :
    (∀ spot ∈ mask.spots, ∀ step ∈ disc radius,
        ((y * (mask.width + 2 * radius) + x : Nat) : Int) = mask.writtenIndex radius spot step →
          spot.value ≤ bound) ↔
      ∀ i j, IsWithin radius (x - radius) (y - radius) i j → mask.cover i j ≤ bound := by
  constructor
  · intro most i j near
    by_cases covered : 0 < mask.cover i j
    · have member := (mem_spots_iff mask ⟨i, j, mask.cover i j⟩).mpr ⟨covered, rfl⟩
      apply most _ member ⟨x - radius - i, y - radius - j⟩
      · rw [mem_disc_iff, IsWithin, sub_zero, sub_zero]
        exact near
      · rw [writtenIndex]
        push_cast
        ring
    · omega
  · intro most spot member step near same
    have value := ((mem_spots_iff mask spot).mp member).2
    have inner := inside_of_mem_spots mask spot member
    rw [mem_disc_iff] at near
    have short := near.abs_le
    rw [sub_zero, sub_zero, abs_le, abs_le] at short
    -- The number of a place gives back its column and row: the step is the one that leads there.
    rw [writtenIndex, Int.natCast_add, Int.natCast_mul] at same
    obtain ⟨column, row⟩ := index_inj _ (by omega) (by omega) same
    rw [← value]
    apply most
    rw [IsWithin, sub_zero, sub_zero] at near
    rw [IsWithin, column, row]
    ring_nf at near ⊢
    exact near

/-- Growing a mask never writes outside, and each place takes the largest value of the disc around
it, stated by its upper bounds. -/
theorem exists_grown : ∃ grown, mask.grow? radius = some grown ∧
    grown.width = mask.width + 2 * radius ∧ grown.height = mask.height + 2 * radius ∧
      ∀ x y bound, x < grown.width → y < grown.height → (grown.value x y ≤ bound ↔
        ∀ i j, IsWithin radius (x - radius) (y - radius) i j → mask.cover i j ≤ bound) := by
  by_cases still : radius = 0
  · subst still
    refine ⟨mask, if_pos rfl, rfl, rfl, ?_⟩
    intro x y bound column row
    have here : mask.cover x y = mask.value x y := at_inside mask x y (by omega)
    rw [← here]
    constructor
    · intro most i j near
      have short := near.abs_le
      obtain rfl : i = x := by
        have := abs_le.mp short.1
        omega
      obtain rfl : j = y := by
        have := abs_le.mp short.2
        omega
      exact most
    · intro most
      exact most x y (isWithin_self 0 x y)
  · obtain ⟨cells, grown_eq, most⟩ := spots_written mask radius still
    refine ⟨_, grown_eq, rfl, rfl, ?_⟩
    intro x y bound column row
    rw [← written_le_iff mask radius x y bound column]
    exact most _ _

theorem dilate_grown : (mask.dilate radius).width = mask.width + 2 * radius ∧
    (mask.dilate radius).height = mask.height + 2 * radius ∧
      ∀ x y bound, x < (mask.dilate radius).width → y < (mask.dilate radius).height →
        ((mask.dilate radius).value x y ≤ bound ↔
          ∀ i j, IsWithin radius (x - radius) (y - radius) i j → mask.cover i j ≤ bound) := by
  obtain ⟨grown, same, parts⟩ := exists_grown mask radius
  rw [dilate, same, Option.getD_some]
  exact parts

theorem cover_dilate_le_iff (x y : Int) (bound : Nat) :
    (mask.dilate radius).cover (x + radius) (y + radius) ≤ bound ↔
      ∀ i j, IsWithin radius x y i j → mask.cover i j ≤ bound := by
  obtain ⟨width, height, values⟩ := dilate_grown mask radius
  by_cases inside : 0 ≤ x + radius ∧ x + radius < (mask.dilate radius).width ∧
      0 ≤ y + radius ∧ y + radius < (mask.dilate radius).height
  · rw [at_inside _ _ _ inside, values _ _ _ (by omega) (by omega), Int.toNat_of_nonneg inside.1,
      Int.toNat_of_nonneg inside.2.2.1, add_sub_cancel_right, add_sub_cancel_right]
  · have nothing : (mask.dilate radius).cover (x + radius) (y + radius) = 0 := by
      rw [cover, at?, if_neg inside, Option.getD_none]
    rw [nothing, iff_true_left (Nat.zero_le bound)]
    intro i j near
    by_cases covered : 0 < mask.cover i j
    · have inner := inside_of_cover mask i j covered
      obtain ⟨columns, rows⟩ := near.abs_le
      rw [abs_le] at columns rows
      exact absurd (by omega) inside
    · omega

end Grow

section Largest

variable (mask : Coverage) (radius : Nat)

def around (x y : Int) : Finset (Fin mask.width × Fin mask.height) :=
  Finset.univ.filter fun place => IsWithin radius x y place.1 place.2

example : (List.range 9).map (fun i => ((⟨1, 1, fun _ _ => 200⟩ : Coverage).dilate 1).value
    (i % 3) (i / 3)) = [0, 200, 0, 200, 200, 200, 0, 200, 0] := by decide

end Largest

end Cartograph.Coverage
