import Mathlib
import Cartograph.Building.Segment
import Cartograph.Proofs.Number.Order

/-! The order of segments. Their middles come first, which tell nothing that the ends do not, so
that segments are equal exactly where all four coordinates have the same patterns, which are also
what is hashed. -/

namespace Cartograph.Segment

open Number

theorem length_orderKey (segment : Segment) : segment.orderKey.length = 5 := rfl

def SameEnds (a b : Segment) : Prop :=
  a.tail.x.bits = b.tail.x.bits ∧ a.tail.y.bits = b.tail.y.bits ∧
    a.head.x.bits = b.head.x.bits ∧ a.head.y.bits = b.head.y.bits

theorem isLE_compare_total (a b : Segment) :
    (a.compare b).isLE = true ∨ (b.compare a).isLE = true :=
  Rank.isLE_compareAll_total a.orderKey b.orderKey

theorem isLE_compare_trans (a b c : Segment) (first : (a.compare b).isLE = true)
    (second : (b.compare c).isLE = true) : (a.compare c).isLE = true := by
  rw [Segment.compare] at first second ⊢
  exact Rank.isLE_compareAll_trans _ _ _
    ((length_orderKey a).trans (length_orderKey b).symm) first second

instance : Std.TransCmp Segment.compare where
  eq_swap {a b} := (Rank.compareAll_swap b.orderKey a.orderKey).symm
  isLE_trans := isLE_compare_trans _ _ _

theorem place_middle_le (a b : Segment) (before : (a.compare b).isLE = true) :
    a.middle.place ≤ b.middle.place := by
  rw [Segment.compare, orderKey, orderKey, Rank.isLE_compareAll_cons] at before
  rcases before with less | ⟨same, -⟩
  · exact less.le
  · exact same.le

theorem sameEnds_iff (a b : Segment) : SameEnds a b ↔ a.tail = b.tail ∧ a.head = b.head := by
  obtain ⟨⟨⟨_⟩, ⟨_⟩⟩, ⟨⟨_⟩, ⟨_⟩⟩, _⟩ := a
  obtain ⟨⟨⟨_⟩, ⟨_⟩⟩, ⟨⟨_⟩, ⟨_⟩⟩, _⟩ := b
  simp [SameEnds, and_assoc]

theorem identity_eq_iff (a b : Segment) : a.identity = b.identity ↔ SameEnds a b := by
  simp [identity, SameEnds]

/-- The middle is found from the ends, so it makes no difference where they are the same. -/
theorem orderKey_eq_iff (a b : Segment) : a.orderKey = b.orderKey ↔ SameEnds a b := by
  rw [sameEnds_iff]
  constructor
  · intro same
    obtain ⟨-, tail_x, tail_y, head_x, head_y, -⟩ := by
      simpa only [orderKey, List.cons.injEq] using same
    exact ⟨Point.mk.injEq .. ▸ ⟨tail_x, tail_y⟩, Point.mk.injEq .. ▸ ⟨head_x, head_y⟩⟩
  · intro ⟨tail, head⟩
    rw [orderKey, orderKey, middle, middle, tail, head]

theorem compare_eq_iff (a b : Segment) : a.compare b = .eq ↔ SameEnds a b := by
  rw [Segment.compare, Rank.compareAll_eq_iff _ _ (length_orderKey a), orderKey_eq_iff]

theorem beq_iff (a b : Segment) : (a == b) = true ↔ a.compare b = .eq :=
  beq_iff_eq (a := a.compare b) (b := .eq)

theorem angle_eq_of_beq (tail head tail' head' : Point Rank)
    (equal : (between tail head == between tail' head') = true) :
    (between tail head).angle = (between tail' head').angle := by
  rw [beq_iff, compare_eq_iff, sameEnds_iff] at equal
  obtain ⟨tails, heads⟩ : tail = tail' ∧ head = head' := equal
  rw [tails, heads]

/-- Segments are in a total order of their ends, and equality, the order and what is hashed agree,
also where coordinates are no numbers. -/
theorem compare_lawful (a b c : Segment) :
    a.compare b = (b.compare a).swap ∧
    (∀ order, a.compare b = order → b.compare c = order → a.compare c = order) ∧
    ((a.compare b).isLE = true → (b.compare c).isLE = true → (a.compare c).isLE = true) ∧
    ((a.compare b).isLE = true ∨ (b.compare a).isLE = true) ∧
    (a.compare b = .eq ↔ SameEnds a b) ∧
    ((a == b) = true ↔ a.compare b = .eq) ∧
    (a.compare b = .eq ↔ a.identity = b.identity) ∧
    ∀ tail head tail' head', (between tail head == between tail' head') = true →
      (between tail head).angle = (between tail' head').angle := by
  refine ⟨Std.OrientedCmp.eq_swap, ?_, isLE_compare_trans a b c, isLE_compare_total a b,
    compare_eq_iff a b, beq_iff a b, ?_, angle_eq_of_beq⟩
  · intro order first second
    cases order with
    | lt => exact Std.TransCmp.lt_trans first second
    | eq => exact Std.TransCmp.eq_trans first second
    | gt => exact Std.TransCmp.gt_trans first second
  · rw [compare_eq_iff, identity_eq_iff]

/-- Between opposite infinities, where the middle is no number. -/
def endless : Segment := between ⟨⟨0⟩, ⟨0x7FF0000000000000⟩⟩ ⟨⟨0⟩, ⟨0xFFF0000000000000⟩⟩

def nowhere (zero : UInt64) : Segment :=
  between ⟨⟨0x7FF8000000000000⟩, ⟨zero⟩⟩ ⟨⟨0x7FF8000000000000⟩, ⟨zero⟩⟩

theorem endless_first :
    endless.compare (nowhere 0x8000000000000000) = .lt ∧
      (nowhere 0x8000000000000000).compare (nowhere 0) = .lt ∧
      endless.compare (nowhere 0) = .lt ∧
      (nowhere 0 == nowhere 0) = true ∧ (nowhere 0).angle = (nowhere 0).angle := by
  have below : endless.compare (nowhere 0x8000000000000000) = .lt := by decide +kernel
  have signs : (nowhere 0x8000000000000000).compare (nowhere 0) = .lt := by decide +kernel
  have itself : (nowhere 0 == nowhere 0) = true := by decide +kernel
  have lawful := compare_lawful endless (nowhere 0x8000000000000000) (nowhere 0)
  exact ⟨below, signs, lawful.2.1 .lt below signs, itself,
    lawful.2.2.2.2.2.2.2 _ _ _ _ itself⟩

end Cartograph.Segment
