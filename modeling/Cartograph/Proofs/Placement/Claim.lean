import Mathlib
import Cartograph.Placement.Feature

/-! What icons and labels claim of the grid. The cells that an item probes are among those that
it takes, since the center of a square belongs to it and the baseline of a label to its box. -/

namespace Cartograph

section Numbers

open Float.Model UnpackedFloat

theorem sub_finite (format : Format) (x : UnpackedFloat) (side : Sign) (mantissa : Nat)
    (exponent : Int) (positive : 0 < mantissa) :
    x.sub format (.finite side mantissa exponent positive) =
      x.add format (.finite (-side) mantissa exponent positive) := by
  cases x with
  | notANumber => rfl
  | infinity => rfl
  | zero => rfl
  | finite side' mantissa' exponent' positive' =>
    have opposite (magnitude : Int) : (-side).apply magnitude = -side.apply magnitude := by
      cases side with
      | positive => rfl
      | negative => exact (neg_neg magnitude).symm
    simp only [UnpackedFloat.sub, UnpackedFloat.add, opposite, ← sub_eq_add_neg]

/-- The baseline of a label is one of the rows of its box. -/
theorem sub_four (x : Float) : x - 4 = x + Float.ofInt (-4) := by
  have four : (4 : Float).toModel.unpack =
      .finite .positive 4503599627370496 (-50) (by decide) := by rfl
  have minus_four : (Float.ofInt (-4)).toModel.unpack =
      .finite .negative 4503599627370496 (-50) (by decide) := by rfl
  have unpacked : x.toModel.unpack.sub Format.binary64 (4 : Float).toModel.unpack =
      x.toModel.unpack.add Format.binary64 (Float.ofInt (-4)).toModel.unpack := by
    rw [four, minus_four, sub_finite]
    rfl
  exact congrArg (fun parts => Float.ofModel (Float.Model.pack parts)) unpacked

end Numbers

namespace Area

theorem mem_span_iff (low high i : Int) : i ∈ span low high ↔ low ≤ i ∧ i < high := by
  simp only [span, List.mem_map, List.mem_range]
  constructor
  · intro listed
    obtain ⟨offset, bound, rfl⟩ := listed
    omega
  · intro bounds
    exact ⟨(i - low).toNat, by omega, by omega⟩

theorem contains_iff (area : Area) (cell : Cell) :
    area.contains cell = true ↔ cell.x ∈ area.columns ∧ cell.y ∈ area.rows := by
  rw [contains, Bool.and_eq_true, List.contains_iff_mem, List.contains_iff_mem]

theorem square_contains_center (center : Cell) (reach : Int) (positive : 0 < reach) :
    (square center reach).contains center = true := by
  rw [contains_iff, square, mem_span_iff, mem_span_iff]
  omega

end Area

namespace Feature

def iconClaim (reach : Int) (position : Point Float) : Claim :=
  ⟨[position.truncate.cell], Area.square position.truncate.cell reach⟩

/-- The items of a feature: what each of them claims and draws, wherever it is laid out. -/
inductive Item (reach : Int) (feature : Feature) : Claim → List (Step Empty) → Prop
  | mainIcon (y : Float) :
    Item reach feature (iconClaim reach (feature.point + ⟨0, y⟩))
      (feature.mainIcon.steps (feature.point + (⟨0, y⟩ : Point Float)).truncate feature.isOutlined)
  | extraIcon (left y : Float) (icon : Icon) (listed : (left, icon) ∈ feature.extraRow) :
    Item reach feature (iconClaim reach (feature.point + ⟨left, y⟩))
      (icon.steps (feature.point + (⟨left, y⟩ : Point Float)).truncate feature.isOutlined)
  | label (y : Float) (label : Label) (listed : label ∈ feature.labels) :
    Item reach feature (textClaim label.shown (feature.point + ⟨0, y + 2⟩))
      (label.steps (feature.point + ⟨0, y + 2⟩))

inductive Substitute (feature : Feature) : List (Step Empty) → Prop
  | defaultIcon (y : Float) (icon : Icon) (listed : feature.defaultIcon = some icon) :
    Substitute feature
      (icon.steps (feature.point + (⟨0, y⟩ : Point Float)).truncate feature.isOutlined)

theorem iconClaim_contains (reach : Int) (positive : 0 < reach) (position : Point Float)
    (probe : Cell) (member : probe ∈ (iconClaim reach position).probes) :
    (iconClaim reach position).area.contains probe = true := by
  rw [List.mem_singleton.mp member]
  exact Area.square_contains_center _ reach positive

theorem textClaim_contains (text : String) (position : Point Float) (probe : Cell)
    (member : probe ∈ (textClaim text position).probes) :
    (textClaim text position).area.contains probe = true := by
  unfold textClaim at member ⊢
  obtain ⟨column, listed, rfl⟩ := List.mem_map.mp member
  rw [Area.contains_iff]
  -- The row of the probes is the one four above the position.
  refine ⟨listed, List.mem_map.mpr ⟨-4, ?_, ?_⟩⟩
  · rw [Area.mem_span_iff]
    decide
  · rw [sub_four]

theorem contains_probe (reach : Int) (positive : 0 < reach) (feature : Feature) (claim : Claim)
    (steps : List (Step Empty)) (item : feature.Item reach claim steps) (probe : Cell)
    (member : probe ∈ claim.probes) : claim.area.contains probe = true := by
  cases item with
  | mainIcon => exact iconClaim_contains reach positive _ probe member
  | extraIcon => exact iconClaim_contains reach positive _ probe member
  | label => exact textClaim_contains _ _ probe member

end Feature

end Cartograph
