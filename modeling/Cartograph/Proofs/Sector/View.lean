import Cartograph.Proofs.Number.Special
import Cartograph.Proofs.Sector.Heading
import Cartograph.Rendering.Nodes

/-! What a viewing angle does to a camera. It widens each heading and leaves ranges as they are,
but a direction is then read as a single sector, so of a list of sectors nothing is left. -/

namespace Cartograph

open Number

namespace Table

variable {α : Type}

def without (table : Table α) (names : List String) : Table α :=
  ⟨table.entries.filter fun entry => !names.contains entry.1⟩

theorem lookup_filter (kept : String → Bool) (name : String) (entries : List (String × α)) :
    (entries.filter fun entry => kept entry.1).lookup name =
      if kept name then entries.lookup name else none := by
  induction entries with
  | nil => simp
  | cons entry rest ih =>
    obtain ⟨key, value⟩ := entry
    by_cases same : name = key
    · subst same
      cases kept_name : kept name <;> simp [kept_name, ih]
    · have other : (name == key) = false := beq_false_of_ne same
      cases kept_key : kept key <;> simp [kept_key, List.lookup_cons, other, ih]

theorem get_without (table : Table α) (names : List String) (name : String) :
    (table.without names).get? name = if name ∈ names then none else table.get? name := by
  rw [get?, without, lookup_filter (fun name => !names.contains name)]
  by_cases listed : name ∈ names <;> simp [listed, get?]

end Table

namespace Sector

theorem semicolon_not_mem_of_heading (text : List Char) (heading : Point Float)
    (read : heading? text = some heading) : ';' ∉ text := by
  obtain ⟨degrees, known, -⟩ := Option.map_eq_some_iff.mp read
  obtain ⟨left, right, parts, left_blank, right_blank⟩ := Text.trim_parts text
  intro member
  rw [parts] at member
  rcases List.mem_append.mp member with before | later
  · exact absurd (left_blank ';' before) (by decide)
  · rcases List.mem_append.mp later with within | after
    · rcases isNumeric_of_heading text degrees known ';' within with digit | letter | same
      · exact absurd digit (by decide)
      · exact absurd letter (by decide)
      · exact absurd same (by decide)
    · exact absurd (right_blank ';' after) (by decide)

theorem read_of_semicolon (text : List Char) (angle : Option Float) (listed : ';' ∈ text) :
    read? text angle = none := by
  by_contra found
  obtain ⟨sector, read⟩ := Option.ne_none_iff_exists'.mp found
  unfold read? at read
  cases cut : range? text with
  | none =>
    rw [cut] at read
    obtain ⟨heading, known, -⟩ := Option.map_eq_some_iff.mp read
    exact semicolon_not_mem_of_heading text heading known listed
  | some ends =>
    obtain ⟨before, after⟩ := ends
    rw [cut] at read
    obtain ⟨start, start_read, rest⟩ := Option.bind_eq_some_iff.mp read
    obtain ⟨finish, finish_read, -⟩ := Option.bind_eq_some_iff.mp rest
    have split : Text.splitFirst? '-' text = some (before, after) := by
      unfold range? at cut
      split at cut
      · cases cut
      · exact cut
    rw [((Text.splitFirst_eq_some_iff '-' text before after).mp split).1] at listed
    rcases List.mem_append.mp listed with first | later
    · exact semicolon_not_mem_of_heading before start start_read first
    · have last := (List.mem_cons.mp later).resolve_left (by decide)
      exact semicolon_not_mem_of_heading after finish finish_read last

theorem readAll_of_single (text : List Char) (single : ';' ∉ text) :
    readAll text = (read? text none).toList := by
  have whole : Text.pieces (· = ';') text = [text] := by
    apply Text.pieces_of_none
    intro c member
    exact decide_eq_false fun same => single (same ▸ member)
  rw [readAll, whole]
  cases read : read? text none <;> simp [read]

/-- The same range, or a wider sector around the same heading. -/
def Widens (narrow wide : Sector) : Prop :=
  wide = narrow ∨ ∃ heading half, defaultHalf < half ∧
    narrow = around heading defaultHalf ∧ wide = around heading half

theorem defaultHalf_lt (degrees : Float) : defaultHalf < halfOpening (some degrees) := by
  obtain ⟨number, above⟩ :=
    (greatest_cases smallestHalf (Path.radians degrees / 2)).1 (by decide +kernel)
  have narrow : ordinal defaultHalf < ordinal smallestHalf := by decide +kernel
  exact (lt_iff _ _ (by decide +kernel) number).mpr (narrow.trans_le above)

theorem read_widens (text : List Char) (degrees : Float) :
    List.Forall₂ Widens (read? text none).toList (read? text (some degrees)).toList := by
  unfold read?
  cases range? text with
  | none =>
    cases heading? text with
    | none => exact .nil
    | some heading =>
      exact .cons (.inr ⟨heading, _, defaultHalf_lt degrees, rfl, rfl⟩) .nil
  | some ends =>
    dsimp only
    cases heading? ends.1 >>= fun start => heading? ends.2 >>= fun finish =>
      some (between start finish) with
    | none => exact .nil
    | some sector => exact .cons (.inl rfl) .nil

end Sector

namespace View

def angleNames : List String := ["angle", "camera:angle"]

/-- A node seen without its viewing angle. -/
def plain (node : Node) : Node := { node with tags := node.tags.without angleNames }

def wedge (scheme : ColorScheme) (node : Node) (sector : Sector) : Step Empty :=
  .shape (sector.path node.point.truncate 50) (Style.filled (scheme.directionCamera.withAlpha 0.2))

section Camera

variable (scheme : ColorScheme) (node : Node) (text : String)
  (camera : node.tags.get? "man_made" = some "surveillance")
  (given : node.tags.get? "camera:direction" = some text) (written : text ≠ "")

include camera given written

theorem steps_of_camera (angle : Option Float)
    (read : (Tags.number? node.tags "angle").orElse
      (fun _ => Tags.number? node.tags "camera:angle") = angle) :
    steps scheme node =
      (match angle with
        | some degrees => (Sector.read? text.toList (some degrees)).toList
        | none => Sector.readAll text.toList).map (wedge scheme node) := by
  have view : ofTags scheme node.tags =
      { direction := some text, angle, radius := 50
        color := scheme.directionCamera.withAlpha 0.2 } := by
    rw [ofTags, camera, given, read]
    rfl
  have shown : (some text).filter (fun text => !text.isEmpty) = some text := by
    simpa [Option.filter] using written
  rw [steps, view, sectors, shown]
  rfl

theorem steps_plain :
    steps scheme (plain node) = (Sector.readAll text.toList).map (wedge scheme node) := by
  have kept (name : String) (other : name ∉ angleNames) :
      (plain node).tags.get? name = node.tags.get? name := by
    rw [plain, Table.get_without, if_neg other]
  have lost (name : String) (listed : name ∈ angleNames) :
      Tags.number? (plain node).tags name = none := by
    rw [Tags.number?, plain, Table.get_without, if_pos listed]
    rfl
  rw [steps_of_camera scheme (plain node) text ((kept _ (by decide)).trans camera)
    ((kept _ (by decide)).trans given) written none]
  · rfl
  · rw [lost _ (by decide), lost _ (by decide)]
    rfl

/-- Without its angle a camera shows every sector of its direction, in their order. The angle widens
a single direction and drops all sectors of a list, so none is lost just if there is no list or
nothing in it to show. -/
theorem steps_widened (degrees : Float)
    (read : (Tags.number? node.tags "angle").orElse
      (fun _ => Tags.number? node.tags "camera:angle") = some degrees) :
    ∃ shown, steps scheme node = shown.map (wedge scheme node) ∧
      steps scheme (plain node) = (Sector.readAll text.toList).map (wedge scheme node) ∧
      (';' ∈ text.toList → shown = []) ∧
      (';' ∉ text.toList → List.Forall₂ Sector.Widens (Sector.readAll text.toList) shown) ∧
      ((steps scheme node).length = (steps scheme (plain node)).length ↔
        ';' ∉ text.toList ∨ Sector.readAll text.toList = []) := by
  have widened : steps scheme node =
      (Sector.read? text.toList (some degrees)).toList.map (wedge scheme node) :=
    steps_of_camera scheme node text camera given written (some degrees) read
  have all := steps_plain scheme node text camera given written
  refine ⟨(Sector.read? text.toList (some degrees)).toList, widened, all, fun listed => ?_,
    fun single => ?_, ?_⟩
  · rw [Sector.read_of_semicolon text.toList _ listed]
    rfl
  · rw [Sector.readAll_of_single text.toList single]
    exact Sector.read_widens text.toList degrees
  · rw [widened, all, List.length_map, List.length_map]
    by_cases listed : ';' ∈ text.toList
    · have lost := Sector.read_of_semicolon text.toList (some degrees) listed
      rw [lost, Option.toList_none, List.length_nil, eq_comm, List.length_eq_zero_iff]
      exact ⟨.inr, fun empty => empty.resolve_left (not_not_intro listed)⟩
    · rw [Sector.readAll_of_single text.toList listed]
      exact iff_of_true (Sector.read_widens text.toList degrees).length_eq.symm (.inl listed)

end Camera

def lookout (direction angle : String) : Node :=
  ⟨⟨[("angle", angle), ("camera:direction", direction), ("man_made", "surveillance")]⟩, ⟨20, 20⟩⟩

theorem north_widened :
    (lookout "N" "90").tags.get? "man_made" = some "surveillance" ∧
      (lookout "N" "90").tags.get? "camera:direction" = some "N" ∧ "N" ≠ "" ∧
      (Tags.number? (lookout "N" "90").tags "angle").orElse
        (fun _ => Tags.number? (lookout "N" "90").tags "camera:angle") = some 90 ∧
      ∃ shown, steps {} (lookout "N" "90") = shown.map (wedge {} (lookout "N" "90")) ∧
        List.Forall₂ Sector.Widens (Sector.readAll "N".toList) shown ∧
        (steps {} (lookout "N" "90")).length = (steps {} (plain (lookout "N" "90"))).length := by
  have camera : (lookout "N" "90").tags.get? "man_made" = some "surveillance" := by decide
  have given : (lookout "N" "90").tags.get? "camera:direction" = some "N" := by decide
  have read : (Tags.number? (lookout "N" "90").tags "angle").orElse
      (fun _ => Tags.number? (lookout "N" "90").tags "camera:angle") = some 90 := rfl
  obtain ⟨shown, drawn, -, -, widened, kept⟩ :=
    steps_widened {} (lookout "N" "90") "N" camera given (by decide) 90 read
  have single : ';' ∉ "N".toList := by decide
  exact ⟨camera, given, by decide, read, shown, drawn, widened single, kept.mpr (.inl single)⟩

theorem north_and_east_dropped :
    Tags.number? (lookout "N;E" "90").tags "angle" = some 90 ∧
      steps {} (lookout "N;E" "90") = [] ∧
      (Sector.readAll "N;E".toList).length = 2 ∧
      (steps {} (plain (lookout "N;E" "90"))).length = 2 :=
  ⟨rfl, rfl, rfl, rfl⟩

end View

end Cartograph
