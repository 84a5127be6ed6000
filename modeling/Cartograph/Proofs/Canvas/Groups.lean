import Cartograph.Proofs.Canvas.Lines
import Cartograph.Proofs.Canvas.Nesting

/-! Groups that are left early. What is drawn of steps that fail is drawn by other steps that do
not, so a group is always closed again, on both kinds of drawings, and passes on the failure of
its steps. -/

namespace Cartograph

namespace Step

open Markup

variable {σ ε : Type}

mutual

def IsOwn : Step ε → Prop
  | group _ steps => AllOwn steps
  | leave => False
  | _ => True

def AllOwn : List (Step ε) → Prop
  | [] => True
  | step :: rest => IsOwn step ∧ AllOwn rest

end

mutual

def failure? : Step ε → Option ε
  | group _ steps => failureAll? steps
  | fail reason => some reason
  | _ => none

def failureAll? : List (Step ε) → Option ε
  | [] => none
  | step :: rest => (failure? step).or (failureAll? rest)

end

mutual

def done : Step ε → List (Step ε)
  | group opacity steps => [group opacity (doneAll steps)]
  | fail _ => []
  | step => [step]

def doneAll : List (Step ε) → List (Step ε)
  | [] => []
  | step :: rest =>
    match failure? step with
    | none => done step ++ doneAll rest
    | some _ => done step

end

section Runs

variable [Canvas σ] (surface : σ)

theorem runAll_append (first second : List (Step ε))
    (carries : (runAll surface first).failure = none) :
    runAll surface (first ++ second) = runAll (runAll surface first).surface second := by
  induction first generalizing surface with
  | nil => rfl
  | cons step rest ih =>
    simp only [List.cons_append, runAll] at carries ⊢
    cases failed : (run surface step).failure with
    | none =>
      simp only [failed] at carries ⊢
      exact ih _ carries
    | some reason =>
      simp only [failed] at carries
      cases carries

theorem runAll_singleton (step : Step ε) (carries : (run surface step).failure = none) :
    runAll surface [step] = ⟨(run surface step).surface, none⟩ := by
  rw [runAll]
  simp only [carries]
  rfl

mutual

theorem run_done (surface : σ) : (step : Step ε) →
    runAll surface (done step) = ⟨(run surface step).surface, none⟩ ∧
      (run surface step).failure = failure? step
  | shape path style => ⟨rfl, rfl⟩
  | label text position style => by
    have carries : (run surface (label text position style : Step ε)).failure = none := by
      rw [run]
      split <;> rfl
    exact ⟨runAll_singleton surface _ carries, carries⟩
  | group opacity steps => by
    obtain ⟨inner, failed⟩ := runAll_done (Canvas.enter opacity surface) steps
    have closed : run surface (group opacity (doneAll steps)) =
        ⟨(run surface (group opacity steps)).surface, none⟩ := by
      rw [run, inner]
      rfl
    refine ⟨?_, failed⟩
    rw [done, runAll_singleton _ _ (by rw [closed]), closed]
  | leave => ⟨rfl, rfl⟩
  | fail reason => ⟨rfl, rfl⟩

theorem runAll_done (surface : σ) : (steps : List (Step ε)) →
    runAll surface (doneAll steps) = ⟨(runAll surface steps).surface, none⟩ ∧
      (runAll surface steps).failure = failureAll? steps
  | [] => ⟨rfl, rfl⟩
  | step :: rest => by
    obtain ⟨first, failed⟩ := run_done surface step
    rw [doneAll, failureAll?, runAll]
    cases result : failure? step with
    | some reason =>
      rw [result] at failed
      simp only [failed]
      exact ⟨first, rfl⟩
    | none =>
      rw [result] at failed
      simp only [failed]
      obtain ⟨others, later⟩ := runAll_done (run surface step).surface rest
      refine ⟨?_, later⟩
      rw [runAll_append surface _ _ (by rw [first]), first]
      exact others

end

end Runs

theorem allBalanced_append (first second : List (Step ε)) (balanced : AllBalanced first)
    (others : AllBalanced second) : AllBalanced (first ++ second) := by
  rw [allBalanced_iff] at balanced others ⊢
  exact List.forall_mem_append.mpr ⟨balanced, others⟩

mutual

theorem allBalanced_done : (step : Step ε) → IsOwn step → AllBalanced (done step)
  | shape _ _, _ => ⟨trivial, trivial⟩
  | label _ _ _, _ => ⟨trivial, trivial⟩
  | group _ steps, own => ⟨allBalanced_doneAll steps own, trivial⟩
  | leave, own => own.elim
  | fail _, _ => trivial

theorem allBalanced_doneAll : (steps : List (Step ε)) → AllOwn steps → AllBalanced (doneAll steps)
  | [], _ => trivial
  | step :: rest, own => by
    have first := allBalanced_done step own.1
    rw [doneAll]
    cases failure? step with
    | some reason => exact first
    | none => exact allBalanced_append _ _ first (allBalanced_doneAll rest own.2)

end

mutual

theorem nests_lines (depth : Nat) : (step : Step ε) → Nests depth (lines depth step)
  | shape path style => by
    rw [lines]
    split
    · exact .leaf _ rfl rfl rfl
    · exact .nil
  | label text position style => by
    rw [lines]
    split
    · exact .nil
    · exact .leaf _ rfl rfl rfl
  | group opacity steps => .wrap "g" _ (nests_linesAll (depth + 1) steps)
  | leave => .nil
  | fail _ => .nil

theorem nests_linesAll (depth : Nat) : (steps : List (Step ε)) →
    Nests depth (linesAll depth steps)
  | [] => .nil
  | step :: rest => (nests_lines depth step).append (nests_linesAll depth rest)

end

mutual

theorem marksGroup_lines (depth : Nat) : (step : Step ε) →
    ∀ line ∈ lines depth step, line.MarksGroup
  | shape path style => by
    rw [lines]
    split <;> simp [Line.MarksGroup]
  | label text position style => by
    rw [lines]
    split <;> simp [Line.MarksGroup]
  | group opacity steps => by
    simp only [lines, List.cons_append, List.forall_mem_cons, List.forall_mem_append]
    exact ⟨rfl, marksGroup_linesAll (depth + 1) steps, rfl, by simp⟩
  | leave => by simp [lines]
  | fail _ => by simp [lines]

theorem marksGroup_linesAll (depth : Nat) : (steps : List (Step ε)) →
    ∀ line ∈ linesAll depth steps, line.MarksGroup
  | [] => by simp [linesAll]
  | step :: rest =>
    List.forall_mem_append.mpr ⟨marksGroup_lines depth step, marksGroup_linesAll depth rest⟩

end

end Step

namespace Raster

/-- The same image with the same groups open. -/
structure Keeps (before after : Raster) : Prop where
  width_eq : after.width = before.width
  height_eq : after.height = before.height
  groups_eq : after.groups.map Group.opacity = before.groups.map Group.opacity

namespace Keeps

variable {before between after : Raster}

theorem refl (image : Raster) : Keeps image image := ⟨rfl, rfl, rfl⟩

theorem trans (first : Keeps before between) (second : Keeps between after) :
    Keeps before after :=
  ⟨second.width_eq.trans first.width_eq, second.height_eq.trans first.height_eq,
    second.groups_eq.trans first.groups_eq⟩

theorem paint (f : Layer → Layer) (image : Raster) : Keeps image (image.paint f) := by
  unfold Raster.paint
  split
  · exact ⟨rfl, rfl, rfl⟩
  · next group outer opened => exact ⟨rfl, rfl, by rw [opened]; rfl⟩

theorem paint? (f : Layer → Option Layer) (image : Raster) : Keeps image (image.paint? f) := by
  unfold Raster.paint?
  split
  · split <;> exact ⟨rfl, rfl, rfl⟩
  · next group outer opened =>
    split
    · exact ⟨rfl, rfl, by rw [opened]; rfl⟩
    · exact ⟨rfl, rfl, rfl⟩

theorem paintPath (path : Path) (style : Style) (image : Raster) :
    Keeps image (image.paintPath path style) := by
  unfold Raster.paintPath
  split
  · exact refl image
  · simp only
    split
    · refine trans ?_ (paint _ _)
      split
      · exact paint _ image
      · exact refl image
    · split
      · exact paint _ image
      · exact refl image

theorem paintText (text : String) (position : Point Float) (style : TextStyle) (image : Raster) :
    Keeps image (image.paintText text position style) := by
  unfold Raster.paintText
  split
  · exact refl image
  · exact paint? _ image

theorem group (opacity : Float) (image : Raster) (inner : Keeps (image.enter opacity) after) :
    Keeps image after.leave := by
  obtain ⟨width_eq, height_eq, groups_eq⟩ := inner
  unfold Raster.leave
  split
  · next none_open =>
    rw [none_open] at groups_eq
    cases groups_eq
  · next group outer opened =>
    rw [opened] at groups_eq
    have outer_eq : outer.map Group.opacity = image.groups.map Group.opacity :=
      (List.cons.inj groups_eq).2
    have left : Keeps image { after with groups := outer } := ⟨width_eq, height_eq, outer_eq⟩
    exact left.trans (paint _ _)

end Keeps

/-- A size that was accepted once is accepted again, so no group is refused its layer. -/
theorem allocate_of_keeps (width height : Float) (font : Option Font) (image after : Raster)
    (created : create width height font = .ok image) (keeps : image.Keeps after) :
    allocate after.width after.height = .ok (Layer.blank after.width after.height) := by
  have allocated := (allocate_of_create width height font image created).1
  rw [keeps.width_eq, keeps.height_eq, allocated, blank_of_allocate _ _ _ allocated]

end Raster

namespace Step

open Markup

variable {ε : Type}

theorem run_group_vector (markup : Markup) (opacity : Float) (steps : List (Step ε)) :
    run (Drawing.vector markup) (group opacity steps) =
      ⟨Canvas.leave (runAll (Drawing.vector (markup.enter opacity)) steps).surface,
        (runAll (Drawing.vector (markup.enter opacity)) steps).failure⟩ := rfl

theorem run_group_raster (image : Raster) (opacity : Float) (steps : List (Step ε)) :
    run (Drawing.raster image) (group opacity steps) =
      ⟨Canvas.leave (runAll (Drawing.raster (image.enter opacity)) steps).surface,
        (runAll (Drawing.raster (image.enter opacity)) steps).failure⟩ := rfl

mutual

theorem run_raster (image : Raster) : (step : Step ε) → IsBalanced step →
    ∃ after, run (Drawing.raster image) step = ⟨.raster after, none⟩ ∧ image.Keeps after
  | shape path style, _ => ⟨_, rfl, .paintPath path style image⟩
  | label text position style, _ => by
    rw [run]
    split
    · exact ⟨image, rfl, .refl image⟩
    · exact ⟨_, rfl, .paintText text position style image⟩
  | group opacity steps, balanced => by
    obtain ⟨inner, drawn, keeps⟩ := runAll_raster (image.enter opacity) steps balanced
    refine ⟨inner.leave, ?_, .group opacity image keeps⟩
    rw [run_group_raster, drawn]
    rfl

theorem runAll_raster (image : Raster) : (steps : List (Step ε)) → AllBalanced steps →
    ∃ after, runAll (Drawing.raster image) steps = ⟨.raster after, none⟩ ∧ image.Keeps after
  | [], _ => ⟨image, rfl, .refl image⟩
  | step :: rest, balanced => by
    obtain ⟨next, first, keeps⟩ := run_raster image step balanced.1
    obtain ⟨after, later, keeps_on⟩ := runAll_raster next rest balanced.2
    refine ⟨after, ?_, keeps.trans keeps_on⟩
    rw [runAll, first]
    exact later

end

theorem runAll_vector_own (markup : Markup) (inside : 0 < markup.depth) (steps : List (Step ε))
    (own : AllOwn steps) :
    runAll (Drawing.vector markup) steps =
      ⟨.vector (markup.extend (linesAll markup.depth (doneAll steps))), failureAll? steps⟩ := by
  obtain ⟨same, failed⟩ := runAll_done (Drawing.vector markup) steps
  rw [runAll_vector markup inside _ (allBalanced_doneAll steps own)] at same
  rw [← failed, (Drawn.mk.inj same).1]

theorem runAll_raster_own (image : Raster) (steps : List (Step ε)) (own : AllOwn steps) :
    ∃ after, runAll (Drawing.raster image) steps = ⟨.raster after, failureAll? steps⟩ ∧
      image.Keeps after := by
  obtain ⟨same, failed⟩ := runAll_done (Drawing.raster image) steps
  obtain ⟨after, drawn, keeps⟩ := runAll_raster image _ (allBalanced_doneAll steps own)
  rw [drawn] at same
  exact ⟨after, by rw [← failed, (Drawn.mk.inj same).1], keeps⟩

/-- However the steps of a group end, the group ends where it began, on both kinds of drawings, and
the reason is theirs. A raster keeps its size, so that the layer of a further group can be allocated
as the first one was. A vector drawing is only added to; what is added is well nested, and so is the
document. Where a failure is passed over, the steps may be replaced by others that do not fail. -/
theorem groups_closed (steps : List (Step ε)) (own : AllOwn steps) :
    (∀ (markup : Markup) (opacity : Float), 0 < markup.depth → ∃ added,
      run (Drawing.vector markup) (group opacity steps) =
        ⟨.vector (markup.extend added),
          (runAll (Drawing.vector (markup.enter opacity)) steps).failure⟩) ∧
    (∀ (image : Raster) (opacity : Float), ∃ after,
      run (Drawing.raster image) (group opacity steps) =
        ⟨.raster after, (runAll (Drawing.raster (image.enter opacity)) steps).failure⟩ ∧
      after.groups.length = image.groups.length ∧
      after.width = image.width ∧ after.height = image.height) ∧
    (∀ markup : Markup, 0 < markup.depth → ∃ added,
      (runAll (Drawing.vector markup) steps).surface = .vector (markup.extend added) ∧
      IsWellNested markup.depth added ∧ ∀ line ∈ added, line.MarksGroup) ∧
    (∀ width height : Float, ∃ markup,
      (runAll (Drawing.ofSize width height) steps).surface = .vector markup ∧
      IsWellNested 0 markup.allLines) ∧
    (∀ width height font image, Raster.create width height font = .ok image → ∃ after,
      (runAll (Drawing.raster image) steps).surface = .raster after ∧
      Raster.allocate after.width after.height =
        .ok (Layer.blank after.width after.height)) ∧
    ∃ others : List (Step ε), AllBalanced others ∧ ∀ surface : Drawing,
      runAll surface others = ⟨(runAll surface steps).surface, none⟩ := by
  have carried (markup : Markup) (inside : 0 < markup.depth) :=
    runAll_vector_own markup inside steps own
  have nests (depth : Nat) := nests_linesAll depth (doneAll steps)
  refine ⟨?_, ?_, ?_, ?_, ?_, doneAll steps, allBalanced_doneAll steps own,
    fun surface => (runAll_done surface steps).1⟩
  · intro markup opacity inside
    refine ⟨lines markup.depth (group opacity (doneAll steps)), ?_⟩
    rw [run_group_vector, carried (markup.enter opacity) (Nat.succ_pos _), lines,
      ← leave_enter markup inside]
    rfl
  · intro image opacity
    obtain ⟨inner, drawn, keeps⟩ := runAll_raster_own (image.enter opacity) steps own
    have left := Raster.Keeps.group opacity image keeps
    refine ⟨inner.leave, ?_, ?_, left.width_eq, left.height_eq⟩
    · rw [run_group_raster, drawn]
      rfl
    · simpa using congrArg List.length left.groups_eq
  · intro markup inside
    exact ⟨_, by rw [carried markup inside], (nests _).isWellNested,
      marksGroup_linesAll _ (doneAll steps)⟩
  · intro width height
    refine ⟨_, by rw [Drawing.ofSize, carried _ Nat.one_pos], Nests.isWellNested (.allLines _ ?_)⟩
    simpa [extend] using nests 1
  · intro width height font image created
    obtain ⟨after, drawn, keeps⟩ := runAll_raster_own image steps own
    have allocated := Raster.allocate_of_keeps width height font image after created keeps
    exact ⟨after, by rw [drawn], allocated⟩

theorem isOwn_written (text : String) (style : Style) : IsOwn (written text style) := by
  unfold written
  split <;> trivial

def unreadable : List (Step Path.Fault) :=
  [group 0.5 [written "M 1 2 H 3" {}, written "Q 1" {}, written "M 4 5 V 6" {}],
    written "M 7 8 H 9" {}]

theorem unreadable_closed :
    failureAll? unreadable = some (.unsupported 'Q') ∧
    (∃ added, run (Drawing.ofSize 10 10) (group 0.25 unreadable) =
      ⟨.vector (({ width := 10, height := 10 } : Markup).extend added),
        some (.unsupported 'Q')⟩) ∧
    ∃ markup, (runAll (Drawing.ofSize 10 10) [group 0.25 unreadable]).surface = .vector markup ∧
      IsWellNested 0 markup.allLines := by
  have own : AllOwn unreadable :=
    ⟨⟨isOwn_written _ _, isOwn_written _ _, isOwn_written _ _, trivial⟩, isOwn_written _ _, trivial⟩
  have failed : failureAll? unreadable = some (.unsupported 'Q') := rfl
  have whole := groups_closed [group 0.25 unreadable] ⟨own, trivial⟩
  obtain ⟨added, drawn⟩ := (groups_closed unreadable own).1 { width := 10, height := 10 } 0.25
    Nat.one_pos
  rw [(runAll_done _ unreadable).2, failed] at drawn
  exact ⟨failed, ⟨added, drawn⟩, whole.2.2.2.1 10 10⟩

end Step

end Cartograph
