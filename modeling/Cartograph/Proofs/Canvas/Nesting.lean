import Cartograph.Canvas.Markup

/-! Lines that open and close elements. Where every element is closed again and the lines are
indented by what is open around them, no closing line comes before its opening one. -/

namespace Cartograph.Markup

namespace Line

def opens (line : Line) : Bool :=
  match line.element with
  | .opening _ _ => true
  | _ => false

def closes (line : Line) : Bool :=
  match line.element with
  | .closing _ => true
  | _ => false

def MarksGroup (line : Line) : Prop :=
  match line.element with
  | .opening name _ => name = "g"
  | .closing name => name = "g"
  | _ => True

def IsInside (line : Line) (count : Nat) : Prop :=
  line.text = String.ofList (List.replicate (2 * count) ' ') ++ line.element.written

end Line

def openings (lines : List Line) : Nat := lines.countP Line.opens

def closings (lines : List Line) : Nat := lines.countP Line.closes

section Counts

variable (first second : List Line) (line : Line)

@[simp] theorem openings_append :
    openings (first ++ second) = openings first + openings second := List.countP_append

@[simp] theorem closings_append :
    closings (first ++ second) = closings first + closings second := List.countP_append

@[simp] theorem openings_cons :
    openings (line :: first) = openings first + if line.opens then 1 else 0 := List.countP_cons

@[simp] theorem closings_cons :
    closings (line :: first) = closings first + if line.closes then 1 else 0 := List.countP_cons

@[simp] theorem openings_nil : openings [] = 0 := rfl

@[simp] theorem closings_nil : closings [] = 0 := rfl

end Counts

/-- No element is closed before it is opened, in the end all are closed, and each line is indented
by the elements around it, which for a line that opens or closes one are those around that one. -/
structure IsWellNested (depth : Nat) (lines : List Line) : Prop where
  never_ahead : ∀ before, before <+: lines → closings before ≤ openings before
  all_closed : closings lines = openings lines
  indented : ∀ before line after, lines = before ++ line :: after →
    line.IsInside (depth + openings before - closings (before ++ [line]))

/-- Lines inside so many elements that open and close others among them. -/
structure Nests (depth : Nat) (lines : List Line) : Prop where
  deep : ∀ line ∈ lines, depth ≤ line.depth
  all_closed : closings lines = openings lines
  depth_eq : ∀ before line after, lines = before ++ line :: after →
    line.depth + closings (before ++ [line]) = depth + openings before

namespace Nests

variable {depth : Nat} {lines others : List Line}

theorem nil : Nests depth [] where
  deep := by simp
  all_closed := rfl
  depth_eq := by simp

theorem leaf (line : Line) (place : line.depth = depth) (stays : line.opens = false)
    (remains : line.closes = false) : Nests depth [line] where
  deep := by simp [place]
  all_closed := by simp [stays, remains]
  depth_eq := by
    intro before other after split
    obtain ⟨rfl, rfl, rfl⟩ : before = [] ∧ other = line ∧ after = [] := by
      cases before with
      | nil => simpa [eq_comm] using split
      | cons first rest => simp at split
    simp [place, remains]

theorem append (first : Nests depth lines) (second : Nests depth others) :
    Nests depth (lines ++ others) where
  deep := List.forall_mem_append.mpr ⟨first.deep, second.deep⟩
  all_closed := by simp [first.all_closed, second.all_closed]
  depth_eq := by
    intro before line after split
    have settled := first.all_closed
    rcases List.append_eq_append_iff.mp split with ⟨further, rfl, rest⟩ | ⟨further, rfl, rest⟩
    · have inside := second.depth_eq further line after rest
      simp only [closings_append, openings_append] at inside ⊢
      omega
    · cases further with
      | nil =>
        have inside := second.depth_eq [] line after rest.symm
        simp only [List.append_nil, List.nil_append, openings_nil] at settled inside ⊢
        rw [closings_append]
        omega
      | cons other further =>
        cases rest
        exact first.depth_eq before line further rfl

theorem wrap (name : String) (attributes : List Attribute) (inner : Nests (depth + 1) lines) :
    Nests depth (⟨depth, .opening name attributes⟩ :: lines ++ [⟨depth, .closing name⟩]) where
  deep := by
    intro line member
    rcases List.mem_append.mp member with inside | last
    · rcases List.mem_cons.mp inside with rfl | inside
      · exact Nat.le_refl _
      · exact Nat.le_of_succ_le (inner.deep line inside)
    · obtain rfl := List.mem_singleton.mp last
      exact Nat.le_refl _
  all_closed := by simp [inner.all_closed, Line.opens, Line.closes]
  depth_eq := by
    intro before line after split
    have settled := inner.all_closed
    cases before with
    | nil =>
      cases split
      simp [Line.closes]
    | cons first before =>
      rw [List.cons_append, List.cons_append, List.cons.injEq] at split
      obtain ⟨rfl, split⟩ := split
      rcases List.append_eq_append_iff.mp split with ⟨further, rfl, rest⟩ | ⟨further, rfl, rest⟩
      · cases further with
        | nil =>
          cases rest
          simp [Line.opens, Line.closes]
          omega
        | cons other further => simp at rest
      · cases further with
        | nil =>
          cases rest
          simp [Line.opens, Line.closes] at settled ⊢
          omega
        | cons other further =>
          cases rest
          have inside := inner.depth_eq before line further rfl
          simp [Line.opens, Line.closes] at inside ⊢
          omega

theorem allLines (markup : Markup) (inner : Nests 1 markup.lines.toList) :
    Nests 0 markup.allLines := inner.wrap "svg" _

theorem isWellNested (nests : Nests depth lines) : IsWellNested depth lines where
  all_closed := nests.all_closed
  never_ahead := by
    rintro before ⟨after, rfl⟩
    rcases List.eq_nil_or_concat before with rfl | ⟨earlier, line, rfl⟩
    · exact Nat.le_refl _
    · have place := nests.depth_eq earlier line after (by simp)
      have deep := nests.deep line (by simp)
      simp only [List.concat_eq_append, openings_append] at place ⊢
      omega
  indented := by
    intro before line after split
    have place := nests.depth_eq before line after split
    have same : depth + openings before - closings (before ++ [line]) = line.depth := by omega
    rw [same]
    rfl

end Nests

end Cartograph.Markup
