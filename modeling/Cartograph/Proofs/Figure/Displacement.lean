import Cartograph.Proofs.Figure.Offset

/-! Offset lines in exact arithmetic. Where no two neighbouring edges are parallel, every edge of an
offset line lies on the line through an edge that is kept, moved by the distance along the normal of
that edge. The joints share two such lines, and a closed line has one more where it comes back. -/

namespace Cartograph.Offset

variable {α : Type}

section Pieces

theorem pieces_on_edges {β γ : Type} (On : β → γ → Prop) (joint : β × β → γ) (edge : β)
    (rest : List β) (joined : ∀ pair ∈ Ring.steps (edge :: rest),
      On pair.1 (joint pair) ∧ On pair.2 (joint pair))
    (start finish : γ) (start_on : On edge start)
    (finish_on : ∀ last, (edge :: rest).getLast? = some last → On last finish) :
    List.Forall₂ (fun edge piece => On edge piece.1 ∧ On edge piece.2) (edge :: rest)
      (Ring.steps (start :: (Ring.steps (edge :: rest)).map joint ++ [finish])) := by
  -- The start moves on to the joint with the next edge.
  induction rest generalizing edge start with
  | nil => exact .cons ⟨start_on, finish_on edge rfl⟩ .nil
  | cons next others later =>
    obtain ⟨here, there⟩ := joined (edge, next) List.mem_cons_self
    refine .cons ⟨start_on, here⟩ (later next ?_ _ there ?_)
    · intro pair member
      exact joined pair (List.mem_cons_of_mem _ member)
    · intro last ends
      exact finish_on last (by rwa [List.getLast?_cons_cons])

theorem piece_of_forall₂ {β γ : Type} {R : β → γ × γ → Prop} {edges : List β} {drawn : List γ}
    (related : List.Forall₂ R edges (Ring.steps drawn)) (number : Nat)
    (inside : number < edges.length) :
    ∃ p q, drawn[number]? = some p ∧ drawn[number + 1]? = some q ∧ R edges[number] (p, q) := by
  obtain ⟨same, at_number⟩ := List.forall₂_iff_get.mp related
  have pieces : number < (Ring.steps drawn).length := same ▸ inside
  have length : number + 1 < drawn.length := by
    rw [Ring.length_steps] at pieces
    omega
  refine ⟨drawn[number], drawn[number + 1], List.getElem?_eq_getElem _,
    List.getElem?_eq_getElem length, ?_⟩
  simpa [Ring.steps_eq_zip] using at_number number inside pieces

end Pieces

section Lines

variable [Field α]

def OnLine (edge : Point α × Point α) (p : Point α) : Prop :=
  ∃ t : α, p = edge.1 + (edge.2 - edge.1) * t

theorem onLine_start (edge : Point α × Point α) : OnLine edge edge.1 := by
  refine ⟨0, ?_⟩
  change (⟨edge.1.x, edge.1.y⟩ : Point α) =
    ⟨edge.1.x + (edge.2.x - edge.1.x) * 0, edge.1.y + (edge.2.y - edge.1.y) * 0⟩
  rw [mul_zero, mul_zero, add_zero, add_zero]

theorem onLine_finish (edge : Point α × Point α) : OnLine edge edge.2 := by
  refine ⟨1, ?_⟩
  change (⟨edge.2.x, edge.2.y⟩ : Point α) =
    ⟨edge.1.x + (edge.2.x - edge.1.x) * 1, edge.1.y + (edge.2.y - edge.1.y) * 1⟩
  rw [mul_one, mul_one, add_sub_cancel, add_sub_cancel]

theorem meeting_eq (p q r s : Point α) (apart : r.cross s ≠ 0) :
    p + r * ((q - p).cross s / r.cross s) = q + s * ((q - p).cross r / r.cross s) := by
  obtain ⟨area, area_eq⟩ : ∃ area, r.cross s = area := ⟨_, rfl⟩
  rw [area_eq] at apart ⊢
  change r.x * s.y - r.y * s.x = area at area_eq
  change (⟨p.x + r.x * (((q.x - p.x) * s.y - (q.y - p.y) * s.x) / area),
      p.y + r.y * (((q.x - p.x) * s.y - (q.y - p.y) * s.x) / area)⟩ : Point α) =
    ⟨q.x + s.x * (((q.x - p.x) * r.y - (q.y - p.y) * r.x) / area),
      q.y + s.y * (((q.x - p.x) * r.y - (q.y - p.y) * r.x) / area)⟩
  congr 1
  · field_simp
    linear_combination (q.x - p.x) * area_eq
  · field_simp
    linear_combination (q.y - p.y) * area_eq

variable (unit? : Point α → Option (Point α)) (distance : α)

/-- On the line through an edge, moved by the distance along the normal of the edge. -/
def OnDisplaced (edge : Point α × Point α) (p : Point α) : Prop :=
  ∃ t : α, p = edge.1 + (edge.2 - edge.1) * t +
    ((unit? (edge.2 - edge.1)).map Point.rightNormal).getD Point.origin * distance

theorem onDisplaced_of_onLine (edge : Point α × Point α) (p : Point α)
    (on : OnLine (moveEdge unit? distance edge) p) : OnDisplaced unit? distance edge p := by
  obtain ⟨a, b⟩ := edge
  obtain ⟨t, rfl⟩ := on
  refine ⟨t, ?_⟩
  simp only [moveEdge]
  generalize ((unit? (b - a)).map Point.rightNormal).getD Point.origin * distance = shift
  change (⟨a.x + shift.x + (b.x + shift.x - (a.x + shift.x)) * t,
      a.y + shift.y + (b.y + shift.y - (a.y + shift.y)) * t⟩ : Point α) =
    ⟨a.x + (b.x - a.x) * t + shift.x, a.y + (b.y - a.y) * t + shift.y⟩
  congr 1 <;> ring

end Lines

section Joints

variable [Field α] [LinearOrder α] [IsStrictOrderedRing α] (tolerance : α)
  (positive : 0 < tolerance)

def Crosses (pair : (Point α × Point α) × (Point α × Point α)) : Prop :=
  tolerance ≤ |(pair.1.2 - pair.1.1).cross (pair.2.2 - pair.2.1)|

include positive

theorem join_on_both (pair : (Point α × Point α) × (Point α × Point α))
    (crosses : Crosses tolerance pair) :
    OnLine pair.1 (join tolerance pair) ∧ OnLine pair.2 (join tolerance pair) := by
  obtain ⟨⟨p, p'⟩, ⟨q, q'⟩⟩ := pair
  change tolerance ≤ |(p' - p).cross (q' - q)| at crosses
  have apart : (p' - p).cross (q' - q) ≠ 0 := abs_pos.mp (positive.trans_le crosses)
  have joined : join tolerance ((p, p'), (q, q')) =
      p + (p' - p) * ((q - p).cross (q' - q) / (p' - p).cross (q' - q)) := by
    have large : magnitudeBelow ((p' - p).cross (q' - q)) tolerance = false := by
      rw [magnitudeBelow, Bool.eq_false_iff, ne_eq, Bool.and_eq_true, decide_eq_true_eq,
        decide_eq_true_eq, ← abs_lt]
      exact crosses.not_gt
    simp [join, large]
  rw [joined]
  exact ⟨⟨_, rfl⟩, ⟨_, meeting_eq p q (p' - p) (q' - q) apart⟩⟩

theorem joinOpen_on_edges (edges : List (Point α × Point α)) (some_edge : edges ≠ [])
    (crosses : ∀ pair ∈ Ring.steps edges, Crosses tolerance pair) :
    List.Forall₂ (fun edge piece => OnLine edge piece.1 ∧ OnLine edge piece.2) edges
      (Ring.steps (joinOpen tolerance edges)) := by
  obtain ⟨edge, rest, rfl⟩ := List.exists_cons_of_ne_nil some_edge
  obtain ⟨last, ends⟩ : ∃ last, (edge :: rest).getLast? = some last := ⟨_, List.getLast?_cons⟩
  rw [joinOpen, ends]
  apply pieces_on_edges OnLine
  · intro pair member
    exact join_on_both tolerance positive pair (crosses pair member)
  · exact onLine_start edge
  · intro other others
    rw [ends] at others
    obtain rfl := Option.some.inj others
    exact onLine_finish last

theorem joinClosed_on_edges (edges : List (Point α × Point α)) (some_edge : edges ≠ [])
    (crosses : ∀ pair ∈ Ring.turns edges, Crosses tolerance pair) :
    List.Forall₂ (fun edge piece => OnLine edge piece.1 ∧ OnLine edge piece.2) edges
      (Ring.steps (joinClosed tolerance edges)) := by
  obtain ⟨edge, rest, rfl⟩ := List.exists_cons_of_ne_nil some_edge
  obtain ⟨before, last, split⟩ := List.eq_nil_or_concat' (edge :: rest) |>.resolve_left some_edge
  have ends : (edge :: rest).getLast? = some last := by simp [split]
  have around : Ring.turns (edge :: rest) = Ring.steps (edge :: rest) ++ [(last, edge)] := by
    rw [Ring.turns, split, List.append_assoc, List.singleton_append, Ring.steps_append, ← split]
    rfl
  rw [around] at crosses
  obtain ⟨there, here⟩ := join_on_both tolerance positive (last, edge) (crosses _ (by simp))
  have closed : joinClosed tolerance (edge :: rest) =
      join tolerance (last, edge) :: (Ring.steps (edge :: rest)).map (join tolerance) ++
        [join tolerance (last, edge)] := by
    rw [joinClosed, ends]
    rfl
  rw [closed]
  apply pieces_on_edges OnLine
  · intro pair member
    exact join_on_both tolerance positive pair (crosses pair (List.mem_append_left _ member))
  · exact here
  · intro other others
    rw [ends] at others
    obtain rfl := Option.some.inj others
    exact there

end Joints

section Line

variable [Field α] [LinearOrder α] [IsStrictOrderedRing α]
  (unit? : Point α → Option (Point α)) (tolerance : α) (points : List (Point α)) (distance : α)

def keptEdges : List (Point α × Point α) :=
  if closes tolerance (thin tolerance points) then Ring.turns (thin tolerance points).dropLast
  else Ring.steps (thin tolerance points)

def corners : List ((Point α × Point α) × (Point α × Point α)) :=
  let moved := (keptEdges tolerance points).map (moveEdge unit? distance)
  if closes tolerance (thin tolerance points) then Ring.turns moved else Ring.steps moved

theorem line_follows_moved (positive : 0 < tolerance)
    (long : 2 ≤ (thin tolerance points).length)
    (crosses : ∀ corner ∈ corners unit? tolerance points distance, Crosses tolerance corner) :
    ∃ drawn, line? unit? tolerance points distance = some drawn ∧
      drawn.length = (keptEdges tolerance points).length + 1 ∧
      List.Forall₂ (fun edge piece => OnLine edge piece.1 ∧ OnLine edge piece.2)
        ((keptEdges tolerance points).map (moveEdge unit? distance)) (Ring.steps drawn) := by
  unfold corners keptEdges at crosses
  unfold line? keptEdges
  generalize thin tolerance points = kept at long crosses ⊢
  simp only at crosses ⊢
  by_cases closed : closes tolerance kept = true
  · rw [if_pos closed, if_pos closed] at crosses
    rw [if_pos closed, if_pos closed]
    have more := ((closes_iff tolerance kept).mp closed).1
    have length : kept.dropLast.length = kept.length - 1 := List.length_dropLast
    refine ⟨_, rfl, ?_, joinClosed_on_edges tolerance positive _ ?_ crosses⟩
    · rw [length_joinClosed tolerance _ _ (by omega), Ring.length_turns]
    · rw [ne_eq, List.map_eq_nil_iff, ← List.length_eq_zero_iff, Ring.length_turns]
      omega
  · rw [if_neg closed, if_neg closed] at crosses
    rw [if_neg closed, if_neg closed, if_neg (by omega)]
    refine ⟨_, rfl, ?_, joinOpen_on_edges tolerance positive _ ?_ crosses⟩
    · rw [length_joinOpen tolerance _ _ long, Ring.length_steps]
      omega
    · rw [ne_eq, List.map_eq_nil_iff, ← List.length_eq_zero_iff, Ring.length_steps]
      omega

/-- Where the directions of neighbouring edges are clearly apart, the numbered points of an offset
line are the ends of pieces that lie, each with both of its ends, on the line through the edge of
that number, moved along the normal of that edge. -/
theorem line_on_displaced_edges (positive : 0 < tolerance)
    (long : 2 ≤ (thin tolerance points).length)
    (crosses : ∀ corner ∈ corners unit? tolerance points distance, Crosses tolerance corner) :
    ∃ drawn, line? unit? tolerance points distance = some drawn ∧
      drawn.length = (keptEdges tolerance points).length + 1 ∧
      ∀ (number : Nat) (inside : number < (keptEdges tolerance points).length),
        ∃ p q, drawn[number]? = some p ∧ drawn[number + 1]? = some q ∧
          OnDisplaced unit? distance (keptEdges tolerance points)[number] p ∧
          OnDisplaced unit? distance (keptEdges tolerance points)[number] q := by
  obtain ⟨drawn, found, length, follows⟩ :=
    line_follows_moved unit? tolerance points distance positive long crosses
  refine ⟨drawn, found, length, fun number inside => ?_⟩
  obtain ⟨p, q, first, second, on_first, on_second⟩ :=
    piece_of_forall₂ (List.forall₂_map_left_iff.mp follows) number inside
  exact ⟨p, q, first, second, onDisplaced_of_onLine unit? distance _ p on_first,
    onDisplaced_of_onLine unit? distance _ q on_second⟩

end Line

def exactUnit? (p : Point ℚ) : Option (Point ℚ) :=
  let size := Rat.sqrt (p.dot p)
  if 0 < size then some ⟨p.x / size, p.y / size⟩ else none

def setSquare : List (Point ℚ) := [⟨0, 0⟩, ⟨4, 0⟩, ⟨4, 0⟩, ⟨4, 3⟩, ⟨0, 0⟩]

theorem setSquare_displaced :
    (0 : ℚ) < 1e-12 ∧ (thin 1e-12 setSquare).length = 4 ∧
      (keptEdges 1e-12 setSquare).length = 3 ∧
      (∀ corner ∈ corners exactUnit? 1e-12 setSquare 1, Crosses 1e-12 corner) ∧
      ∃ drawn, line? exactUnit? 1e-12 setSquare 1 = some drawn ∧
        ∀ (number : Nat) (inside : number < (keptEdges 1e-12 setSquare).length),
          ∃ p q, drawn[number]? = some p ∧ drawn[number + 1]? = some q ∧
            OnDisplaced exactUnit? 1 (keptEdges 1e-12 setSquare)[number] p ∧
            OnDisplaced exactUnit? 1 (keptEdges 1e-12 setSquare)[number] q := by
  have kept : (thin 1e-12 setSquare).length = 4 := by decide +kernel
  have crosses : ∀ corner ∈ corners exactUnit? 1e-12 setSquare 1, Crosses 1e-12 corner := by
    unfold Crosses
    decide +kernel
  have positive : (0 : ℚ) < 1e-12 := by norm_num
  obtain ⟨drawn, found, -, on_edges⟩ :=
    line_on_displaced_edges exactUnit? 1e-12 setSquare 1 positive (by omega) crosses
  exact ⟨positive, kept, by decide +kernel, crosses, drawn, found, on_edges⟩

end Cartograph.Offset
