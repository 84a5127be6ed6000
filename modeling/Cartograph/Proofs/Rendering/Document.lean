import Cartograph.Proofs.Canvas.Document
import Cartograph.Proofs.Rendering.Painting

/-! The document that a scene is drawn as. It is well formed unless a label or a line of the credit
holds a character that no document may hold. -/

namespace Cartograph

namespace Scene

section Texts

variable (configuration : Configuration) (scene : Scene)

def Shows (text : String) : Prop :=
  (∃ feature ∈ scene.points, ∃ label ∈ feature.labels, text = label.shown) ∨
    ∃ line ∈ Credit.lines configuration, text = line.1

theorem shows_of_paints (step : Step Empty) (paints : Paints configuration scene step) :
    ∀ text ∈ step.texts, Shows configuration scene text := by
  intro text listed
  cases paints with
  | shape path style => cases listed
  | shade opacity parts shapes =>
    rw [Step.texts, Step.textsAll_eq_flatMap] at listed
    obtain ⟨part, member, inside⟩ := List.mem_flatMap.mp listed
    obtain ⟨path, style, rfl⟩ := shapes part member
    cases inside
  | label feature point label own position style =>
    rw [Step.texts] at listed
    split at listed
    · cases listed
    · exact .inl ⟨feature, point, label, own, List.mem_singleton.mp listed⟩
  | credit line known position style =>
    rw [Step.texts] at listed
    split at listed
    · cases listed
    · exact .inr ⟨line, known, List.mem_singleton.mp listed⟩

def texts : List String := Step.textsAll (steps configuration scene)

theorem shows_of_texts : ∀ text ∈ texts configuration scene, Shows configuration scene text := by
  intro text listed
  rw [texts, Step.textsAll_eq_flatMap] at listed
  obtain ⟨step, member, inside⟩ := List.mem_flatMap.mp listed
  exact shows_of_paints configuration scene step (paints_steps configuration scene step member)
    text inside

theorem credit_mem_texts (isDrawn : configuration.showCredit = true)
    (line : String × Point Float) (listed : line ∈ Credit.lines configuration)
    (visible : line.1.isEmpty = false) : line.1 ∈ texts configuration scene := by
  rw [texts, Step.textsAll_eq_flatMap, steps_eq_layers]
  refine List.mem_flatMap.mpr ⟨.label line.1 (scene.size - line.2) Credit.style, ?_, ?_⟩
  · apply List.mem_append_right
    refine List.mem_flatMap.mpr ⟨.credit, by simp [Category.all], ?_⟩
    rw [layer, Category.isDrawn, category, if_pos isDrawn]
    exact List.mem_flatMap.mpr ⟨line, listed, List.mem_cons_of_mem _ List.mem_cons_self⟩
  · rw [Step.texts, if_neg (by simp [visible])]
    exact List.mem_singleton_self _

end Texts

/-- Labels and credits are read back as they are shown, except that a document ends every line with
a line feed. -/
theorem document_of_render (configuration : Configuration) (scene : Scene)
    (width height : Float) :
    ∃ markup, render configuration scene (Drawing.ofSize width height) =
        ⟨.vector markup, none⟩ ∧
      (∀ text ∈ texts configuration scene, Shows configuration scene text) ∧
      ((∃ tree, Xml.IsDocument tree markup.document.toList) ↔
        Step.Readable (texts configuration scene)) ∧
      (Step.Readable (texts configuration scene) →
        Xml.IsDocument (Markup.tree width height (steps configuration scene))
          markup.document.toList) ∧
      (Markup.tree width height (steps configuration scene)).contents =
        (texts configuration scene).map (fun text => Xml.unify text.toList) ∧
      ((∀ text ∈ texts configuration scene, '\r' ∉ text.toList) →
        (Markup.tree width height (steps configuration scene)).contents =
          (texts configuration scene).map String.toList) := by
  have balanced := allBalanced_steps configuration scene
  have written := Markup.document_drawn width height _ balanced
  refine ⟨Markup.drawn width height (steps configuration scene), ?_,
    shows_of_texts configuration scene, ⟨?_, ?_⟩, written, Markup.contents_tree width height _,
    Markup.contents_tree_exact width height _⟩
  · exact Step.runAll_vector { width, height } Nat.one_pos _ balanced
  · intro read_back
    obtain ⟨tree, document⟩ := read_back
    exact Markup.readable_of_document width height _ tree document
  · intro readable
    exact ⟨_, written readable⟩

/-- A control character in the credit leaves no document. -/
theorem control_credit_unreadable :
    ∃ markup, render { credit := some "\x01" } signpostScene (Drawing.ofSize 40 40) =
        ⟨.vector markup, none⟩ ∧ ∀ tree, ¬ Xml.IsDocument tree markup.document.toList := by
  have balanced := allBalanced_steps { credit := some "\x01" } signpostScene
  refine ⟨Markup.drawn 40 40 (steps { credit := some "\x01" } signpostScene),
    Step.runAll_vector { width := 40, height := 40 } Nat.one_pos _ balanced, ?_⟩
  intro tree document
  have shown := credit_mem_texts { credit := some "\x01" } signpostScene rfl ("Data: \x01", _)
    (List.mem_cons_of_mem _ List.mem_cons_self) (by decide)
  have readable := Markup.readable_of_document 40 40 _ tree document _ shown '\x01' (by decide)
  exact absurd readable (by decide)

end Scene

end Cartograph
