import Cartograph.Canvas.Drawing

/-! The lines that steps add to a vector drawing. A drawing only grows; what a step adds to it
depends on the step and on how deep the drawing is in groups, and on nothing drawn before. -/

namespace Cartograph

namespace Markup

def extend (markup : Markup) (lines : List Line) : Markup :=
  { markup with lines := markup.lines ++ lines.toArray }

theorem extend_nil (markup : Markup) : markup.extend [] = markup := by
  simp [extend]

theorem extend_append (markup : Markup) (first second : List Line) :
    markup.extend (first ++ second) = (markup.extend first).extend second := by
  simp [extend, ← List.append_toArray]

theorem push_eq_extend (markup : Markup) (element : Element) :
    markup.push element = markup.extend [⟨markup.depth, element⟩] := by
  simp [push, extend]

theorem leave_enter (markup : Markup) (inside : 0 < markup.depth) (opacity : Float)
    (lines : List Line) :
    ((markup.enter opacity).extend lines).leave =
      markup.extend (⟨markup.depth, .opening "g" [.number "opacity" (Color.clampUnit opacity)]⟩ ::
        lines ++ [⟨markup.depth, .closing "g"⟩]) := by
  have depth_eq : max markup.depth 1 = markup.depth := by omega
  simp [enter, leave, push, extend, depth_eq]

end Markup

namespace Step

open Markup

variable {ε : Type}

mutual

def IsBalanced : Step ε → Prop
  | shape _ _ => True
  | label _ _ _ => True
  | group _ steps => AllBalanced steps
  | leave => False
  | fail _ => False

def AllBalanced : List (Step ε) → Prop
  | [] => True
  | step :: rest => IsBalanced step ∧ AllBalanced rest

end

mutual

def lines (depth : Nat) : Step ε → List Line
  | shape path style =>
    let data := PathData.text path
    if style.isVisible && !data.isEmpty then
      [⟨depth, .shape (⟨"d", data⟩ :: Attribute.ofStyle style)⟩]
    else []
  | label text position style =>
    if text.isEmpty then [] else [⟨depth, .text (Attribute.ofTextStyle position style) text⟩]
  | group opacity steps =>
    ⟨depth, .opening "g" [.number "opacity" (Color.clampUnit opacity)]⟩ ::
      linesAll (depth + 1) steps ++ [⟨depth, .closing "g"⟩]
  | leave => []
  | fail _ => []

def linesAll (depth : Nat) : List (Step ε) → List Line
  | [] => []
  | step :: rest => lines depth step ++ linesAll depth rest

end

theorem allBalanced_iff (steps : List (Step ε)) :
    AllBalanced steps ↔ ∀ step ∈ steps, IsBalanced step := by
  induction steps with
  | nil => simp [AllBalanced]
  | cons step rest later => simp [AllBalanced, later]

mutual

theorem run_vector (markup : Markup) (inside : 0 < markup.depth) :
    (step : Step ε) → IsBalanced step →
      run (Drawing.vector markup) step = ⟨.vector (markup.extend (lines markup.depth step)), none⟩
  | shape path style, _ => by
    change (⟨.vector (markup.paintPath path style), none⟩ : Drawn Drawing ε) = _
    rw [Markup.paintPath, lines]
    split
    · rw [push_eq_extend]
    · rw [extend_nil]
  | label text position style, _ => by
    rw [run, lines]
    split
    · rw [extend_nil]
    · rw [← push_eq_extend]
      rfl
  | group opacity steps, balanced => by
    have inner := runAll_vector (markup.enter opacity) (Nat.succ_pos _) steps balanced
    change (⟨Canvas.leave (runAll (Drawing.vector (markup.enter opacity)) steps).surface,
      (runAll (Drawing.vector (markup.enter opacity)) steps).failure⟩ : Drawn Drawing ε) = _
    rw [inner, lines, ← leave_enter markup inside]
    rfl

theorem runAll_vector (markup : Markup) (inside : 0 < markup.depth) :
    (steps : List (Step ε)) → AllBalanced steps →
      runAll (Drawing.vector markup) steps =
        ⟨.vector (markup.extend (linesAll markup.depth steps)), none⟩
  | [], _ => by
    rw [linesAll, extend_nil]
    rfl
  | step :: rest, balanced => by
    rw [runAll, run_vector markup inside step balanced.1]
    simp only
    rw [runAll_vector (markup.extend _) inside rest balanced.2, linesAll, extend_append]
    rfl

end

end Step

end Cartograph
