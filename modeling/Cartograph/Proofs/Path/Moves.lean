import Cartograph.Path.Pen

/-! Moves in a row. Only the last of them is seen, whether they are dropped from the end of a
list or replaced one by one while it is built. -/

namespace Cartograph

namespace PenEvent

def map {α β : Type} (f : Point α → Point β) : PenEvent α → PenEvent β
  | move p => move (f p)
  | line p => line (f p)
  | curve p q r => curve (f p) (f q) (f r)
  | close => close

end PenEvent

namespace Contour

variable {α : Type}

def isMove : PenEvent α → Bool
  | .move _ => true
  | _ => false

/-- Of moves in a row only the last one counts. -/
def collapse : List (PenEvent α) → List (PenEvent α)
  | [] => []
  | element :: rest =>
    if isMove element && rest.head?.any isMove then collapse rest else element :: collapse rest

def push (parts : List (PenEvent α)) (element : PenEvent α) : List (PenEvent α) :=
  if isMove element && parts.head?.any isMove then element :: parts.tail else element :: parts

theorem push_other (parts : List (PenEvent α)) (element : PenEvent α)
    (other : isMove element = false) : push parts element = element :: parts := by
  simp [push, other]

theorem foldl_push_cons (first : PenEvent α) (earlier elements : List (PenEvent α)) :
    (elements.foldl push (first :: earlier)).reverse =
      earlier.reverse ++ collapse (first :: elements) := by
  induction elements generalizing first earlier with
  | nil => simp [collapse]
  | cons element rest ih =>
    by_cases both : isMove first = true ∧ isMove element = true
    · have replaced : push (first :: earlier) element = element :: earlier := by simp [push, both]
      have dropped : collapse (first :: element :: rest) = collapse (element :: rest) := by
        rw [collapse, if_pos (by simpa using both)]
      rw [List.foldl_cons, replaced, ih, dropped]
    · have pushed : push (first :: earlier) element = element :: first :: earlier := by
        rw [push, if_neg (by simpa [and_comm] using both)]
      have kept : collapse (first :: element :: rest) = first :: collapse (element :: rest) := by
        rw [collapse, if_neg (by simpa using both)]
      rw [List.foldl_cons, pushed, ih, kept]
      simp

theorem foldl_push (elements : List (PenEvent α)) :
    (elements.foldl push []).reverse = collapse elements := by
  cases elements with
  | nil => rfl
  | cons element rest =>
    rw [List.foldl_cons, show push [] element = [element] by simp [push]]
    exact foldl_push_cons element [] rest

theorem collapse_map {β : Type} (f : Point α → Point β) (elements : List (PenEvent α)) :
    collapse (elements.map (PenEvent.map f)) = (collapse elements).map (PenEvent.map f) := by
  have same : ∀ element : PenEvent α, isMove (element.map f) = isMove element := by
    intro element
    cases element <;> rfl
  induction elements with
  | nil => rfl
  | cons element rest ih =>
    have head : (rest.map (PenEvent.map f)).head?.any isMove = rest.head?.any isMove := by
      cases rest with
      | nil => rfl
      | cons next rest => exact same next
    simp only [List.map_cons, collapse, same, head, ih]
    split <;> rfl

theorem collapse_move (p : Point α) (rest : List (PenEvent α)) :
    ∃ q later, collapse (.move p :: rest) = .move q :: later := by
  induction rest generalizing p with
  | nil => exact ⟨p, [], rfl⟩
  | cons element rest ih =>
    cases element with
    | move q => simpa [collapse, isMove] using ih q
    | line q => exact ⟨p, _, rfl⟩
    | curve q r t => exact ⟨p, _, rfl⟩
    | close => exact ⟨p, _, rfl⟩

end Contour

end Cartograph
