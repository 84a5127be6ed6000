import Mathlib
import Cartograph.Figure.Offset
import Cartograph.Proofs.Figure.Area
import Cartograph.Proofs.Number.Difference

/-! The shape of offset lines. Points near the last one kept are left out first, and what is kept
decides whether there is a line at all, how many points it has and where it ends. Every point and
edge that is needed on the way is found. -/

namespace Cartograph

namespace Offset

section Thin

variable {α : Type} [Sub α] [Neg α] [LE α] [DecidableLE α] (tolerance : α)

theorem thinAfter_eq_nil_iff (kept : Point α) (points : List (Point α)) :
    thinAfter tolerance kept points = [] ↔ ∀ p ∈ points, kept.near p tolerance = true := by
  induction points with
  | nil => simp [thinAfter]
  | cons p rest later =>
    rw [thinAfter, List.forall_mem_cons]
    split
    · next near => simp [near, later]
    · next far => simp [far]

theorem length_thin_lt_iff (points : List (Point α)) :
    (thin tolerance points).length < 2 ↔
      points = [] ∨ ∃ first rest, points = first :: rest ∧
        ∀ p ∈ rest, first.near p tolerance = true := by
  cases points with
  | nil => simp [thin]
  | cons first rest =>
    have short : (thin tolerance (first :: rest)).length < 2 ↔
        thinAfter tolerance first rest = [] := by
      rw [thin, List.length_cons, ← List.length_eq_zero_iff]
      omega
    rw [short, thinAfter_eq_nil_iff]
    simp

theorem thinAfter_sublist (kept : Point α) (points : List (Point α)) :
    (thinAfter tolerance kept points).Sublist points := by
  induction points generalizing kept with
  | nil => exact .slnil
  | cons p rest later =>
    rw [thinAfter]
    split
    · exact (later kept).cons p
    · exact (later p).cons_cons p

theorem far_of_thinAfter (kept p : Point α) (points rest : List (Point α))
    (next : thinAfter tolerance kept points = p :: rest) : kept.near p tolerance = false := by
  induction points with
  | nil => cases next
  | cons q others later =>
    rw [thinAfter] at next
    split at next
    · exact later next
    · next far =>
      obtain ⟨rfl, -⟩ := List.cons.inj next
      simpa using far

theorem getLast_thinAfter (kept last : Point α) (points : List (Point α))
    (ends : (kept :: points).getLast? = some last) :
    ∃ final, (kept :: thinAfter tolerance kept points).getLast? = some final ∧
      (final = last ∨ final.near last tolerance = true) := by
  induction points generalizing kept with
  | nil =>
    obtain rfl : kept = last := Option.some.inj ends
    exact ⟨kept, rfl, .inl rfl⟩
  | cons p rest later =>
    rw [List.getLast?_cons_cons] at ends
    rw [thinAfter]
    split
    · next near =>
      cases rest with
      | nil =>
        obtain rfl : p = last := Option.some.inj ends
        exact ⟨kept, rfl, .inr near⟩
      | cons q others =>
        rw [List.getLast?_cons_cons] at ends
        exact later kept (by rwa [List.getLast?_cons_cons])
    · rw [List.getLast?_cons_cons]
      exact later p ends

def EndsMeet (points : List (Point α)) : Prop :=
  ∃ first ∈ points.head?, ∃ last ∈ points.getLast?, first.near last tolerance = true

theorem closes_iff (points : List (Point α)) :
    closes tolerance points = true ↔ 2 < points.length ∧ EndsMeet tolerance points := by
  rw [closes, Bool.and_eq_true, decide_eq_true_eq, EndsMeet]
  apply and_congr_right
  intro long
  cases points with
  | nil => cases long
  | cons first rest => simp [List.getLast?_cons]

/-- Two points that are kept are not near each other, so a line that meets itself has more. -/
theorem length_thin_of_endsMeet (points : List (Point α))
    (meets : EndsMeet tolerance (thin tolerance points))
    (long : 2 ≤ (thin tolerance points).length) : 2 < (thin tolerance points).length := by
  cases points with
  | nil => cases long
  | cons first rest =>
    rw [thin] at meets long ⊢
    cases kept : thinAfter tolerance first rest with
    | nil =>
      rw [kept] at long
      exact absurd long (by simp)
    | cons second others =>
      cases others with
      | nil =>
        rw [kept] at meets
        obtain ⟨p, first_eq, q, last_eq, near⟩ := meets
        obtain rfl : first = p := Option.some.inj first_eq
        obtain rfl : second = q := Option.some.inj last_eq
        rw [far_of_thinAfter tolerance first second rest [] kept] at near
        cases near
      | cons third others => simp

end Thin

section Joints

variable {α : Type} [Add α] [Sub α] [Mul α] [Neg α] [Div α] [LT α] [DecidableLT α]
  (tolerance : α)

theorem length_joinOpen (move : Point α × Point α → Point α × Point α) (line : List (Point α))
    (long : 2 ≤ line.length) :
    (joinOpen tolerance ((Ring.steps line).map move)).length = line.length := by
  have length : ((Ring.steps line).map move).length = line.length - 1 := by
    rw [List.length_map, Ring.length_steps]
  generalize (Ring.steps line).map move = edges at length ⊢
  cases edges with
  | nil =>
    rw [List.length_nil] at length
    omega
  | cons edge rest =>
    simp [joinOpen, List.getLast?_cons, Ring.length_steps] at length ⊢
    omega

theorem head_joinOpen (edges : List (Point α × Point α)) :
    (joinOpen tolerance edges).head? = edges.head?.map Prod.fst := by
  cases edges with
  | nil => rfl
  | cons edge rest => simp [joinOpen, List.getLast?_cons]

theorem getLast_joinOpen (edges : List (Point α × Point α)) :
    (joinOpen tolerance edges).getLast? = edges.getLast?.map Prod.snd := by
  cases edges with
  | nil => rfl
  | cons edge rest => simp [joinOpen, List.getLast?_cons]

theorem length_joinClosed (move : Point α × Point α → Point α × Point α)
    (loop : List (Point α)) (some_point : 0 < loop.length) :
    (joinClosed tolerance ((Ring.turns loop).map move)).length = loop.length + 1 := by
  have length : ((Ring.turns loop).map move).length = loop.length := by
    rw [List.length_map, Ring.length_turns]
  generalize (Ring.turns loop).map move = edges at length ⊢
  cases edges with
  | nil =>
    rw [List.length_nil] at length
    omega
  | cons edge rest => simp [joinClosed, List.getLast?_cons, Ring.length_steps, ← length]

theorem ends_joinClosed (edges : List (Point α × Point α)) :
    (joinClosed tolerance edges).head? = (joinClosed tolerance edges).getLast? := by
  cases edges with
  | nil => rfl
  | cons edge rest => simp [joinClosed, List.getLast?_cons, Ring.steps]

end Joints

section Line

variable {α : Type} [Add α] [Sub α] [Mul α] [Neg α] [Div α] [OfNat α 0] [LE α] [DecidableLE α]
  [LT α] [DecidableLT α] (unit? : Point α → Option (Point α)) (tolerance : α)

/-- What is kept of the points decides how long a line is and where its ends are. -/
structure Outlines (kept : List (Point α)) (distance : α) (line : List (Point α)) : Prop where
  long : 2 ≤ line.length
  length_eq : line.length = kept.length
  closed : 2 < kept.length ∧ EndsMeet tolerance kept → line.head? = line.getLast?
  opened : ¬ (2 < kept.length ∧ EndsMeet tolerance kept) →
    line.head? = ((Ring.steps kept).map (moveEdge unit? distance)).head?.map Prod.fst ∧
      line.getLast? = ((Ring.steps kept).map (moveEdge unit? distance)).getLast?.map Prod.snd

variable (points : List (Point α)) (distance : α)

theorem line?_eq_none_iff :
    line? unit? tolerance points distance = none ↔ (thin tolerance points).length < 2 := by
  unfold line?
  simp only
  split
  · next closed =>
    have long := ((closes_iff tolerance _).mp closed).1
    exact iff_of_false (Option.some_ne_none _) (by omega)
  · split
    · next short => exact iff_of_true rfl short
    · next long => exact iff_of_false (Option.some_ne_none _) long

theorem outlines_of_line (line : List (Point α))
    (found : line? unit? tolerance points distance = some line) :
    Outlines unit? tolerance (thin tolerance points) distance line := by
  unfold line? at found
  generalize thin tolerance points = kept at found ⊢
  simp only at found
  split at found
  · next closed =>
    have meets := (closes_iff tolerance kept).mp closed
    have loop_length : kept.dropLast.length = kept.length - 1 := List.length_dropLast
    obtain rfl := Option.some.inj found
    have length := length_joinClosed tolerance (moveEdge unit? distance) kept.dropLast (by omega)
    exact ⟨by omega, by omega, fun _ => ends_joinClosed _ _, fun apart => absurd meets apart⟩
  · next apart =>
    rw [closes_iff] at apart
    split at found
    · cases found
    · next long =>
      obtain rfl := Option.some.inj found
      have length := length_joinOpen tolerance (moveEdge unit? distance) kept (by omega)
      exact ⟨by omega, length, fun meets => absurd meets apart,
        fun _ => ⟨head_joinOpen _ _, getLast_joinOpen _ _⟩⟩

end Line

section Numbers

theorem mapM_range {β : Type} (find? : Nat → Option β) (count : Nat) (results : List β)
    (length : results.length = count)
    (found : ∀ number < count, find? number = results[number]?) :
    (List.range count).mapM find? = some results := by
  subst length
  induction results using List.reverseRecOn with
  | nil => rfl
  | append_singleton results last later =>
    have earlier := later fun number inside => by
      rw [found number (by simp; omega), List.getElem?_append_left inside]
    have final := found results.length (by simp)
    rw [List.length_append, List.length_singleton, List.range_succ, List.mapM_append, earlier]
    simp [final]

section Edges

variable {α : Type} [Add α] [Sub α] [Mul α] [Neg α] [OfNat α 0]
  (unit? : Point α → Option (Point α)) (distance : α)

def edgeAt? (loop : List (Point α)) (number : Nat) : Option (Point α × Point α) := do
  let tail ← loop[number]?
  let head ← loop[(number + 1) % loop.length]?
  return moveEdge unit? distance (tail, head)

theorem edges_around (loop : List (Point α)) :
    (List.range loop.length).mapM (edgeAt? unit? distance loop) =
      some ((Ring.turns loop).map (moveEdge unit? distance)) := by
  apply mapM_range
  · rw [List.length_map, Ring.length_turns]
  intro number inside
  have next := Nat.mod_lt (number + 1) (Nat.zero_lt_of_lt inside)
  simp [edgeAt?, inside, next, Ring.turns_eq_zip, List.getElem_rotate]

theorem edges_along (line : List (Point α)) :
    (List.range (line.length - 1)).mapM (edgeAt? unit? distance line) =
      some ((Ring.steps line).map (moveEdge unit? distance)) := by
  apply mapM_range
  · rw [List.length_map, Ring.length_steps]
  intro number inside
  have tail : number < line.length := by omega
  have head : number + 1 < line.length := by omega
  simp [edgeAt?, tail, head, Nat.mod_eq_of_lt head, Ring.steps_eq_zip, List.getElem?_zip_eq_some]

end Edges

section Joints

variable {α : Type} [Add α] [Sub α] [Mul α] [Neg α] [Div α] [LT α] [DecidableLT α]
  (tolerance : α)

def jointAt? (edges : List (Point α × Point α)) (number : Nat) : Option (Point α) := do
  let previous ← edges[(number + edges.length - 1) % edges.length]?
  let edge ← edges[number]?
  return join tolerance (previous, edge)

theorem joints_around (edges : List (Point α × Point α)) (last : Point α × Point α)
    (ends : edges.getLast? = some last) :
    (List.range edges.length).mapM (jointAt? tolerance edges) =
      some ((Ring.steps (last :: edges)).map (join tolerance)) := by
  rw [List.getLast?_eq_getElem?] at ends
  apply mapM_range
  · rw [List.length_map, Ring.length_steps, List.length_cons, Nat.add_sub_cancel]
  intro number inside
  have begun : number < (last :: edges).length := by simpa using inside.le
  have previous : edges[(number + edges.length - 1) % edges.length]? =
      some (last :: edges)[number] := by
    cases number with
    | zero =>
      rw [Nat.zero_add, Nat.mod_eq_of_lt (Nat.sub_lt inside Nat.one_pos)]
      exact ends
    | succ earlier =>
      have around : (earlier + 1 + edges.length - 1) % edges.length = earlier := by
        rw [show earlier + 1 + edges.length - 1 = earlier + edges.length by omega,
          Nat.add_mod_right, Nat.mod_eq_of_lt (by omega)]
      rw [around, List.getElem?_eq_getElem (by omega), List.getElem_cons_succ]
  simp [jointAt?, inside, previous, Ring.steps_eq_zip]

end Joints

section Ends

variable {α : Type} [Sub α] [Neg α] [LE α] [DecidableLE α] (tolerance : α)

def closesAt? (points : List (Point α)) : Option Bool :=
  if 2 < points.length then do
    let first ← points[0]?
    let last ← points[points.length - 1]?
    return first.near last tolerance
  else some false

theorem closesAt?_eq (points : List (Point α)) :
    closesAt? tolerance points = some (closes tolerance points) := by
  rw [closesAt?, closes, List.head?_eq_getElem?, List.getLast?_eq_getElem?]
  split
  · next long =>
    have first : 0 < points.length := by omega
    have last : points.length - 1 < points.length := by omega
    simp [long, List.getElem?_eq_getElem first, List.getElem?_eq_getElem last]
  · next short => simp [short]

end Ends

section Parts

variable {α : Type} [Add α] [Sub α] [Mul α] [Neg α] [Div α] [OfNat α 0] [LT α] [DecidableLT α]
  (unit? : Point α → Option (Point α)) (tolerance : α)

def closedLineAt? (loop : List (Point α)) (distance : α) : Option (List (Point α)) := do
  let edges ← (List.range loop.length).mapM (edgeAt? unit? distance loop)
  let joints ← (List.range edges.length).mapM (jointAt? tolerance edges)
  let first ← joints[0]?
  return joints ++ [first]

def openLineAt? (line : List (Point α)) (distance : α) : Option (List (Point α)) := do
  let edges ← (List.range (line.length - 1)).mapM (edgeAt? unit? distance line)
  let first ← edges[0]?
  let last ← edges[edges.length - 1]?
  return first.1 :: (Ring.steps edges).map (join tolerance) ++ [last.2]

theorem closedLineAt?_eq (loop : List (Point α)) (distance : α) (some_point : 0 < loop.length) :
    closedLineAt? unit? tolerance loop distance =
      some (joinClosed tolerance ((Ring.turns loop).map (moveEdge unit? distance))) := by
  have length : ((Ring.turns loop).map (moveEdge unit? distance)).length = loop.length := by
    rw [List.length_map, Ring.length_turns]
  rw [closedLineAt?, edges_around]
  generalize (Ring.turns loop).map (moveEdge unit? distance) = edges at length ⊢
  obtain ⟨edge, rest, rfl⟩ := List.exists_cons_of_length_pos (length ▸ some_point)
  obtain ⟨last, ends⟩ : ∃ last, (edge :: rest).getLast? = some last := ⟨_, List.getLast?_cons⟩
  simp only [Option.bind_eq_bind, Option.bind_some, joints_around tolerance _ last ends]
  rw [joinClosed, ends]
  rfl

theorem openLineAt?_eq (line : List (Point α)) (distance : α) (long : 2 ≤ line.length) :
    openLineAt? unit? tolerance line distance =
      some (joinOpen tolerance ((Ring.steps line).map (moveEdge unit? distance))) := by
  have length : ((Ring.steps line).map (moveEdge unit? distance)).length = line.length - 1 := by
    rw [List.length_map, Ring.length_steps]
  rw [openLineAt?, edges_along]
  generalize (Ring.steps line).map (moveEdge unit? distance) = edges at length ⊢
  obtain ⟨edge, rest, rfl⟩ := List.exists_cons_of_length_pos (show 0 < edges.length by omega)
  obtain ⟨last, ends⟩ : ∃ last, (edge :: rest).getLast? = some last := ⟨_, List.getLast?_cons⟩
  simp only [Option.bind_eq_bind, Option.bind_some, ← List.getLast?_eq_getElem?, ends]
  rw [joinOpen, ends]
  rfl

end Parts

variable {α : Type} [Add α] [Sub α] [Mul α] [Neg α] [Div α] [OfNat α 0] [LE α] [DecidableLE α]
  [LT α] [DecidableLT α] (unit? : Point α → Option (Point α)) (tolerance : α)

/-- The line, with points and edges looked up by their numbers. Absent where one is out of
range. -/
def lineAt? (points : List (Point α)) (distance : α) : Option (Option (List (Point α))) := do
  let kept := thin tolerance points
  let closed ← closesAt? tolerance kept
  let loop := if closed then kept.dropLast else kept
  if loop.length < 2 then return none
  else if closed then some <$> closedLineAt? unit? tolerance loop distance
  else some <$> openLineAt? unit? tolerance loop distance

theorem lineAt?_eq (points : List (Point α)) (distance : α) :
    lineAt? unit? tolerance points distance = some (line? unit? tolerance points distance) := by
  unfold lineAt? line?
  simp only [closesAt?_eq, Option.bind_eq_bind, Option.bind_some]
  generalize thin tolerance points = kept
  by_cases closed : closes tolerance kept = true
  · have long := ((closes_iff tolerance kept).mp closed).1
    have loop_length : kept.dropLast.length = kept.length - 1 := List.length_dropLast
    rw [if_pos closed, if_pos closed, if_pos closed, if_neg (by omega),
      closedLineAt?_eq unit? tolerance _ _ (by omega)]
    rfl
  · rw [if_neg closed, if_neg closed, if_neg closed]
    split
    · rfl
    · next long =>
      rw [openLineAt?_eq unit? tolerance _ _ (by omega)]
      rfl

end Numbers

end Offset

namespace Point

open Number

structure IsFinite (p : Point Float) : Prop where
  x : p.x.isFinite = true
  y : p.y.isFinite = true

theorem magnitudeWithin_iff (x bound : Float) (left : x.isNaN = false)
    (right : bound.isNaN = false) :
    magnitudeWithin x bound = true ↔ |ordinal x| ≤ ordinal bound := by
  have opposite : (-bound).isNaN = false := (isNaN_neg bound).trans right
  rw [magnitudeWithin, Bool.and_eq_true, decide_eq_true_eq, decide_eq_true_eq,
    le_iff _ _ opposite left, le_iff _ _ left right, ordinal_neg, abs_le]

section Near

variable (tolerance : Float) (number : tolerance.isNaN = false) (p q : Point Float)
  (left : p.IsFinite) (right : q.IsFinite)

include number left right

theorem near_iff :
    p.near q tolerance = true ↔
      |ordinal (p.x - q.x)| ≤ ordinal tolerance ∧ |ordinal (p.y - q.y)| ≤ ordinal tolerance := by
  rw [near, Bool.and_eq_true,
    magnitudeWithin_iff _ _ (number_sub _ _ left.x right.x) number,
    magnitudeWithin_iff _ _ (number_sub _ _ left.y right.y) number]

theorem near_comm : p.near q tolerance = true ↔ q.near p tolerance = true := by
  rw [near_iff tolerance number p q left right, near_iff tolerance number q p right left,
    ordinal_sub_swap p.x q.x left.x right.x, ordinal_sub_swap p.y q.y left.y right.y, abs_neg,
    abs_neg]

end Near

theorem beq_iff (p q : Point Float) : (p == q) = true ↔ (p.x == q.x) = true ∧ (p.y == q.y) = true :=
  Bool.and_eq_true_iff

theorem near_congr (tolerance : Float) (number : tolerance.isNaN = false) (p p' q : Point Float)
    (left : p.IsFinite) (left' : p'.IsFinite) (right : q.IsFinite) (same : (p == p') = true) :
    p.near q tolerance = true ↔ p'.near q tolerance = true := by
  obtain ⟨same_x, same_y⟩ := (beq_iff p p').mp same
  rw [near_iff tolerance number p q left right, near_iff tolerance number p' q left' right,
    ordinal_sub_congr _ _ right.x _ same_x, ordinal_sub_congr _ _ right.y _ same_y]

theorem near_of_beq (tolerance : Float) (number : tolerance.isNaN = false)
    (nonneg : 0 ≤ ordinal tolerance) (p q : Point Float) (left : p.IsFinite) (right : q.IsFinite)
    (same : (p == q) = true) : p.near q tolerance = true := by
  obtain ⟨same_x, same_y⟩ := (beq_iff p q).mp same
  rw [near_iff tolerance number p q left right, ordinal_sub_eq_zero _ _ right.x same_x,
    ordinal_sub_eq_zero _ _ right.y same_y, abs_zero]
  exact ⟨nonneg, nonneg⟩

end Point

namespace Ring

open Number

theorem tolerance_number : tolerance.isNaN = false := by decide +kernel

theorem tolerance_nonneg : 0 ≤ ordinal tolerance := by decide +kernel

def Returns (points : Ring) : Prop :=
  ∃ first ∈ points.head?, ∃ last ∈ points.getLast?, (first == last) = true

theorem endsMeet_of_returns (points : Ring) (finite : ∀ p ∈ points, p.IsFinite)
    (returns : Returns points) :
    Offset.EndsMeet tolerance (Offset.thin tolerance points) := by
  obtain ⟨first, begins, last, ends, same⟩ := returns
  cases points with
  | nil => cases begins
  | cons head rest =>
    obtain rfl : head = first := Option.some.inj begins
    obtain ⟨final, kept_last, final_last⟩ := Offset.getLast_thinAfter tolerance head last rest ends
    have head_finite := finite head List.mem_cons_self
    have last_finite := finite last (List.mem_of_getLast? ends)
    have final_finite : final.IsFinite := by
      have kept := (Offset.thinAfter_sublist tolerance head rest).cons_cons head
      exact finite final (kept.subset (List.mem_of_getLast? kept_last))
    refine ⟨head, rfl, final, kept_last, ?_⟩
    rcases final_last with rfl | near
    · exact Point.near_of_beq tolerance tolerance_number tolerance_nonneg _ _ head_finite
        last_finite same
    · rw [Point.near_congr tolerance tolerance_number head last final head_finite last_finite
        final_finite same, Point.near_comm tolerance tolerance_number _ _ last_finite final_finite]
      exact near

/-- Every point and edge of an offset line is found, and the points that are kept decide whether
there is a line, how many points it has and where it ends. A finite line that returns is offset to
one that closes. -/
theorem offset_outlines (points : Ring) (distance : Float) :
    Offset.lineAt? Point.unit? tolerance points distance = some (offset? points distance) ∧
    (offset? points distance = none ↔
      points = [] ∨ ∃ first rest, points = first :: rest ∧
        ∀ p ∈ rest, first.near p tolerance = true) ∧
    ∀ line, offset? points distance = some line →
      Offset.Outlines Point.unit? tolerance (Offset.thin tolerance points) distance line ∧
      ((∀ p ∈ points, p.IsFinite) → Returns points → line.head? = line.getLast?) := by
  refine ⟨Offset.lineAt?_eq _ _ _ _, ?_, ?_⟩
  · rw [offset?, Offset.line?_eq_none_iff, Offset.length_thin_lt_iff]
  · intro line found
    have outlines := Offset.outlines_of_line Point.unit? tolerance points distance line found
    refine ⟨outlines, fun finite returns => outlines.closed ?_⟩
    have meets := endsMeet_of_returns points finite returns
    have long := outlines.length_eq ▸ outlines.long
    exact ⟨Offset.length_thin_of_endsMeet tolerance points meets long, meets⟩

def court : Ring := [⟨0, 0⟩, ⟨10, 0⟩, ⟨10, 10⟩, ⟨10, 10⟩, ⟨0, 10⟩, ⟨-0, -0⟩]

theorem court_closes :
    (∀ p ∈ court, p.IsFinite) ∧ Returns court ∧
      ∃ line, offset? court 1 = some line ∧ line.length = 5 ∧ line.head? = line.getLast? := by
  have all : court.all (fun p => p.x.isFinite && p.y.isFinite) = true := by decide +kernel
  have finite : ∀ p ∈ court, p.IsFinite := by
    intro p member
    obtain ⟨x, y⟩ := Bool.and_eq_true_iff.mp (List.all_eq_true.mp all p member)
    exact ⟨x, y⟩
  have returns : Returns court := ⟨⟨0, 0⟩, rfl, ⟨-0, -0⟩, rfl, by decide +kernel⟩
  have kept : (Offset.thin tolerance court).length = 5 := by decide +kernel
  obtain ⟨line, found⟩ : ∃ line, offset? court 1 = some line :=
    Option.isSome_iff_exists.mp (by decide +kernel)
  obtain ⟨outlines, closes⟩ := (offset_outlines court 1).2.2 line found
  exact ⟨finite, returns, line, found, outlines.length_eq.trans kept, closes finite returns⟩

end Ring

end Cartograph
