import Cartograph.Proofs.Canvas.Lines
import Cartograph.Proofs.Canvas.Written

/-! The document of a vector drawing. It is well formed if the texts in it are, and then it is the
tree of the steps that were drawn, with a group for an element around others. -/

namespace Cartograph

open Xml

namespace Markup

def indent (depth : Nat) : List Char := List.replicate (2 * depth) ' '

def lineText (line : Line) : List Char :=
  indent line.depth ++ line.element.written.toList ++ ['\n']

def linesText (lines : List Line) : List Char := lines.flatMap lineText

theorem document_toList (markup : Markup) :
    markup.document.toList = linesText markup.allLines := by
  rw [document, String.toList_join, List.flatMap_map, linesText]
  congr 1
  funext line
  simp [lineText, Line.text, indent]

theorem isBlank_indent (depth : Nat) : ∀ c ∈ indent depth, isBlank c = true := by
  intro c member
  rw [List.eq_of_mem_replicate member]
  decide

section Lines

variable {trees children : List Tree} {later : List Char} {attributes : List Attribute}
  {names : List String} {name : String}

theorem elements_line (depth : Nat) (element : Element) (tree : Tree)
    (first : Xml.Element tree element.written.toList) (rest : Elements trees later) :
    Elements (tree :: trees) (lineText ⟨depth, element⟩ ++ later) := by
  have blank : ∀ c ∈ ['\n'], isBlank c = true := List.forall_mem_singleton.mpr rfl
  rw [lineText, List.append_assoc]
  exact .next (isBlank_indent depth) first (rest.blanks ['\n'] blank)

theorem element_enclosed (depth : Nat) (inner : List Line)
    (tag : IsTag name (attributes.map Attribute.pair)
      (name.toList ++ (Element.attributesText attributes).toList))
    (nested : Elements children (linesText inner ++ indent depth)) :
    Xml.Element (.parent name (attributes.map Attribute.pair) children)
      ((Element.opening name attributes).written.toList ++ '\n' :: linesText inner ++
        indent depth ++ (Element.closing name).written.toList) := by
  have derived := Xml.Element.parent tag
    (nested.blanks ['\n'] (List.forall_mem_singleton.mpr rfl))
  simpa [Element.written] using derived

end Lines

end Markup

namespace Step

open Markup

variable {ε : Type}

mutual

def trees : Step ε → List Tree
  | shape path style =>
    let data := PathData.text path
    if style.isVisible && !data.isEmpty then
      [.leaf "path" (((⟨"d", data⟩ : Attribute) :: Attribute.ofStyle style).map Attribute.pair) []]
    else []
  | label text position style =>
    if text.isEmpty then []
    else [.leaf "text" ((Attribute.ofTextStyle position style).map Attribute.pair)
      (unify text.toList)]
  | group opacity steps =>
    [.parent "g" ([Attribute.number "opacity" (Color.clampUnit opacity)].map Attribute.pair)
      (treesAll steps)]
  | leave => []
  | fail _ => []

def treesAll : List (Step ε) → List Tree
  | [] => []
  | step :: rest => trees step ++ treesAll rest

end

mutual

def texts : Step ε → List String
  | shape _ _ => []
  | label text _ _ => if text.isEmpty then [] else [text]
  | group _ steps => textsAll steps
  | leave => []
  | fail _ => []

def textsAll : List (Step ε) → List String
  | [] => []
  | step :: rest => texts step ++ textsAll rest

end

def Readable (texts : List String) : Prop := ∀ text ∈ texts, ∀ c ∈ text.toList, isChar c = true

theorem element_shape (path : Path) (style : Style) :
    Xml.Element (.leaf "path"
        (((⟨"d", PathData.text path⟩ : Attribute) :: Attribute.ofStyle style).map Attribute.pair)
        [])
      (Element.shape (⟨"d", PathData.text path⟩ :: Attribute.ofStyle style)).written.toList := by
  have fits : Attribute.Fits ("d" :: Attribute.styleNames)
      (⟨"d", PathData.text path⟩ :: Attribute.ofStyle style) :=
    .cons ⟨"d", PathData.text path⟩ (isValue_pathData path) (Attribute.fits_ofStyle style)
  have tag := Attribute.isTag_of_fits "path" (by decide) (by decide) (by decide) fits
  simpa [Element.written] using Xml.Element.empty tag

theorem element_label (text : String) (position : Point Float) (style : TextStyle)
    (readable : ∀ c ∈ text.toList, isChar c = true) :
    Xml.Element (.leaf "text" ((Attribute.ofTextStyle position style).map Attribute.pair)
        (unify text.toList))
      (Element.text (Attribute.ofTextStyle position style) text).written.toList := by
  have tag := Attribute.isTag_of_fits "text" (by decide) (by decide) (by decide)
    (Attribute.fits_ofTextStyle position style)
  simpa [Element.written, escapeAll] using Xml.Element.leaf tag (data_escape _ readable)

theorem element_group (depth : Nat) (opacity : Float) (inner : List Line) (children : List Tree)
    (nested : Elements children (linesText inner ++ indent depth)) :
    Xml.Element
      (.parent "g" ([Attribute.number "opacity" (Color.clampUnit opacity)].map Attribute.pair)
        children)
      ((Element.opening "g" [.number "opacity" (Color.clampUnit opacity)]).written.toList ++
        '\n' :: linesText inner ++ indent depth ++ (Element.closing "g").written.toList) :=
  element_enclosed depth inner
    (Attribute.isTag_of_fits "g" (by decide) (by decide) (by decide)
      (Attribute.fits_number "opacity" _)) nested

mutual

theorem elements_step (depth : Nat) {others : List Tree} {later : List Char}
    (rest : Elements others later) :
    (step : Step ε) → step.IsBalanced → Readable step.texts →
      Elements (step.trees ++ others) (linesText (step.lines depth) ++ later)
  | shape path style, _, _ => by
    rw [trees, lines]
    split
    · rw [linesText, List.flatMap_singleton]
      exact elements_line depth _ _ (element_shape path style) rest
    · exact rest
  | label text position style, _, readable => by
    rw [trees, lines]
    rw [texts] at readable
    split
    · exact rest
    · next shown =>
      rw [if_neg shown] at readable
      rw [linesText, List.flatMap_singleton]
      exact elements_line depth _ _
        (element_label text position style (readable text List.mem_cons_self)) rest
  | group opacity steps, balanced, readable => by
    have nested := elements_steps (depth + 1) (.done (isBlank_indent depth)) steps balanced readable
    rw [List.append_nil] at nested
    have blank : ∀ c ∈ ['\n'], isBlank c = true := List.forall_mem_singleton.mpr rfl
    have derived := Elements.next (isBlank_indent depth)
      (element_group depth opacity _ _ nested) (rest.blanks ['\n'] blank)
    simpa [trees, lines, linesText, lineText, List.append_assoc] using derived

theorem elements_steps (depth : Nat) {others : List Tree} {later : List Char}
    (rest : Elements others later) :
    (steps : List (Step ε)) → AllBalanced steps → Readable (textsAll steps) →
      Elements (treesAll steps ++ others) (linesText (linesAll depth steps) ++ later)
  | [], _, _ => rest
  | step :: steps, balanced, readable => by
    obtain ⟨own, following⟩ := List.forall_mem_append.mp readable
    have derived := elements_step depth
      (elements_steps depth rest steps balanced.2 following) step balanced.1 own
    rw [treesAll, linesAll, linesText, List.flatMap_append, List.append_assoc, List.append_assoc]
    exact derived

end

theorem textsAll_eq_flatMap (steps : List (Step ε)) : textsAll steps = steps.flatMap texts := by
  induction steps with
  | nil => rfl
  | cons step rest later => rw [textsAll, List.flatMap_cons, later]

mutual

theorem contents_trees :
    (step : Step ε) →
      Tree.contentsAll step.trees = step.texts.map fun text => unify text.toList
  | shape path style => by
    rw [trees, texts]
    split <;> rfl
  | label text position style => by
    rw [trees, texts]
    split <;> rfl
  | group opacity steps => by
    rw [trees, texts, ← contents_treesAll steps, Tree.contentsAll, Tree.contentsAll,
      Tree.contents, List.append_nil]
  | leave => rfl
  | fail _ => rfl

theorem contents_treesAll :
    (steps : List (Step ε)) →
      Tree.contentsAll (treesAll steps) = (textsAll steps).map fun text => unify text.toList
  | [] => rfl
  | step :: rest => by
    rw [treesAll, textsAll, Tree.contentsAll_append, contents_trees step, contents_treesAll rest,
      List.map_append]

end

mutual

theorem mem_lines_of_texts (depth : Nat) (text : String) :
    (step : Step ε) → text ∈ step.texts →
      ∃ inner attributes, ⟨inner, .text attributes text⟩ ∈ step.lines depth
  | label shown position style, listed => by
    rw [texts] at listed
    rw [lines]
    split at listed
    · cases listed
    · next visible =>
      obtain rfl := List.mem_singleton.mp listed
      rw [if_neg visible]
      exact ⟨depth, _, List.mem_cons_self⟩
  | group opacity steps, listed => by
    obtain ⟨inner, attributes, found⟩ := mem_linesAll_of_texts (depth + 1) text steps listed
    rw [lines]
    exact ⟨inner, attributes, List.mem_append_left _ (List.mem_cons_of_mem _ found)⟩

theorem mem_linesAll_of_texts (depth : Nat) (text : String) :
    (steps : List (Step ε)) → text ∈ textsAll steps →
      ∃ inner attributes, ⟨inner, .text attributes text⟩ ∈ linesAll depth steps
  | step :: rest, listed => by
    rw [linesAll]
    rcases List.mem_append.mp listed with own | following
    · obtain ⟨inner, attributes, found⟩ := mem_lines_of_texts depth text step own
      exact ⟨inner, attributes, List.mem_append_left _ found⟩
    · obtain ⟨inner, attributes, found⟩ := mem_linesAll_of_texts depth text rest following
      exact ⟨inner, attributes, List.mem_append_right _ found⟩

end

end Step

namespace Markup

open Step

variable {ε : Type} (width height : Float) (steps : List (Step ε))

def drawn : Markup := Markup.extend { width, height } (linesAll 1 steps)

def rootAttributes : List Attribute :=
  let width := Number.text width
  let height := Number.text height
  [⟨"xmlns", "http://www.w3.org/2000/svg"⟩, ⟨"width", width⟩, ⟨"height", height⟩,
    ⟨"viewBox", "0 0 " ++ width ++ " " ++ height⟩]

def tree : Tree :=
  .parent "svg" ((rootAttributes width height).map Attribute.pair) (treesAll steps)

theorem fits_root : Attribute.Fits ["xmlns", "width", "height", "viewBox"]
    (rootAttributes width height) := by
  have box : isValue ("0 0 " ++ Number.text width ++ " " ++ Number.text height) = true :=
    isValue_append _ _ (isValue_append _ " " (isValue_append _ _ (by decide)
      (isValue_number width)) (by decide)) (isValue_number height)
  exact .cons ⟨"xmlns", _⟩ (by decide) <| .cons ⟨"width", _⟩ (isValue_number width) <|
    .cons ⟨"height", _⟩ (isValue_number height) <| .cons ⟨"viewBox", _⟩ box .nil

theorem document_drawn (balanced : AllBalanced steps) (readable : Readable (textsAll steps)) :
    IsDocument (tree width height steps) (drawn width height steps).document.toList := by
  have nested := elements_steps 1 (.done (isBlank_indent 0)) steps balanced readable
  rw [List.append_nil] at nested
  have tag := Attribute.isTag_of_fits "svg" (by decide) (by decide) (by decide)
    (fits_root width height)
  refine ⟨_, ['\n'], element_enclosed 0 _ tag nested, List.forall_mem_singleton.mpr rfl, ?_⟩
  rw [document_toList]
  simp [allLines, drawn, extend, root, rootAttributes, linesText, lineText, indent]

theorem contents_tree :
    (tree width height steps).contents = (textsAll steps).map fun text => unify text.toList := by
  rw [tree, Tree.contents, contents_treesAll]

theorem contents_tree_exact (plain : ∀ text ∈ textsAll steps, '\r' ∉ text.toList) :
    (tree width height steps).contents = (textsAll steps).map String.toList := by
  rw [contents_tree]
  apply List.map_congr_left
  intro text listed
  exact unify_eq_self text.toList (plain text listed)

theorem mem_escape (c : Char) (unreadable : isChar c = false) : c ∈ escape c := by
  rcases escape_cases c with ⟨name, known, -⟩ | ⟨-, -, -, written⟩
  · have readable : ∀ entity ∈ entities, isChar entity.2 = true := by decide
    rw [readable _ known] at unreadable
    cases unreadable
  · rw [written]
    exact List.mem_singleton_self c

theorem readable_of_document (other : Tree)
    (document : IsDocument other (drawn width height steps).document.toList) :
    Readable (textsAll steps) := by
  intro text listed c member
  by_contra unreadable
  obtain ⟨inner, attributes, found⟩ := mem_linesAll_of_texts 1 text steps listed
  have line : (⟨inner, .text attributes text⟩ : Line) ∈ (drawn width height steps).allLines := by
    simp [allLines, drawn, extend, found]
  have inside : c ∈ text.toList.flatMap escape :=
    List.mem_flatMap.mpr ⟨c, member, mem_escape c (Bool.eq_false_iff.mpr unreadable)⟩
  have escaped : c ∈ (Element.text attributes text).written.toList := by
    simp [Element.written, escapeAll, inside]
  apply unreadable
  apply document.chars
  rw [document_toList]
  refine List.mem_flatMap.mpr ⟨_, line, ?_⟩
  exact List.mem_append_left _ (List.mem_append_right _ escaped)

end Markup

end Cartograph
