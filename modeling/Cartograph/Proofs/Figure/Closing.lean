import Cartograph.Proofs.Figure.Offset

/-! Rings that stay closed when they are offset. A path is closed where its ends are near each
other, but a ring is offset as a loop only where the ends that are kept of it are nearer still. A
ring between these two tolerances is closed on its own and may be open once it is offset; one that
ends exactly where it begins stays closed. -/

namespace Cartograph

open Number

namespace Path

def isClosed (path : Path) : Bool :=
  match path.getLast? with
  | some .close => true
  | _ => false

def closingTolerance : Float := 1e-9

theorem isClosed_polyline_iff (points : Ring) :
    (polyline points).isClosed = true ↔
      2 ≤ points.length ∧ Offset.EndsMeet closingTolerance points := by
  cases points with
  | nil => simp [polyline, isClosed]
  | cons first rest =>
    rcases List.eq_nil_or_concat' rest with rfl | ⟨between, last, rfl⟩
    · simp [polyline, isClosed]
    · have meets : Offset.EndsMeet closingTolerance (first :: (between ++ [last])) ↔
          first.near last 1e-9 = true := by
        simp [Offset.EndsMeet, closingTolerance, List.getLast?_cons]
      rw [meets]
      cases near : first.near last 1e-9 <;>
        simp [polyline, isClosed, near, List.getLast?_cons]

end Path

namespace Ring

theorem closingTolerance_number : Path.closingTolerance.isNaN = false := by decide +kernel

theorem closingTolerance_nonneg : 0 ≤ ordinal Path.closingTolerance := by decide +kernel

theorem endsMeet_of_same_ends (line : Ring) (finite : ∀ p ∈ line, p.IsFinite)
    (long : 2 ≤ line.length) (same : line.head? = line.getLast?) :
    Offset.EndsMeet Path.closingTolerance line := by
  obtain ⟨first, rest, rfl⟩ := List.exists_cons_of_length_pos (show 0 < line.length by omega)
  have first_finite := finite first List.mem_cons_self
  refine ⟨first, rfl, first, same ▸ rfl, ?_⟩
  have itself (x : Float) (number : x.isFinite = true) : (x == x) = true :=
    (beq_iff x x (number_of_isFinite x number) (number_of_isFinite x number)).mpr rfl
  apply Point.near_of_beq _ closingTolerance_number closingTolerance_nonneg _ _ first_finite
    first_finite
  exact (Point.beq_iff first first).mpr
    ⟨itself _ first_finite.x, itself _ first_finite.y⟩

/-- The ring is too short to be offset, or the offset too small. -/
def StaysInPlace (moved : Ring) (distance : Float) : Prop :=
  Offset.magnitudeBelow distance tolerance = true ∨ (Offset.thin tolerance moved).length < 2

def movedEdges (moved : Ring) (distance : Float) : List (Point Float × Point Float) :=
  (steps (Offset.thin tolerance moved)).map (Offset.moveEdge Point.unit? distance)

/-- The first edge begins near the end of the last one, once both have been moved. -/
def MovedEndsMeet (moved : Ring) (distance : Float) : Prop :=
  ∃ first ∈ (movedEdges moved distance).head?, ∃ last ∈ (movedEdges moved distance).getLast?,
    first.1.near last.2 Path.closingTolerance = true

variable (ring : Ring) (shift : Point Float) (parallel : Float)

theorem path_zero : path ring shift 0 = Path.polyline (ring.map (· + shift)) := by
  have small : Offset.magnitudeBelow 0 tolerance = true := by decide +kernel
  rw [path, if_pos small]

theorem path_of_staysInPlace (stays : StaysInPlace (ring.map (· + shift)) parallel) :
    path ring shift parallel = path ring shift 0 := by
  rw [path_zero, path]
  rcases stays with small | short
  · rw [if_pos small]
  · rw [offset?, (Offset.line?_eq_none_iff _ _ _ _).mpr short, Option.getD_none, ite_self]

theorem path_of_line (stays : ¬ StaysInPlace (ring.map (· + shift)) parallel) :
    ∃ line, offset? (ring.map (· + shift)) parallel = some line ∧
      path ring shift parallel = Path.polyline line := by
  rw [StaysInPlace, not_or] at stays
  have found : offset? (ring.map (· + shift)) parallel ≠ none := fun none =>
    stays.2 ((Offset.line?_eq_none_iff _ _ _ _).mp none)
  obtain ⟨line, found⟩ := Option.ne_none_iff_exists'.mp found
  exact ⟨line, found, by rw [path, if_neg stays.1, found, Option.getD_some]⟩

section Finite

variable (finite_line : ∀ line, offset? (ring.map (· + shift)) parallel = some line →
  ∀ p ∈ line, p.IsFinite)

include finite_line

/-- What decides whether a closed ring is still closed once it is offset. -/
theorem isClosed_path_iff (closed : (path ring shift 0).isClosed = true) :
    (path ring shift parallel).isClosed = true ↔
      StaysInPlace (ring.map (· + shift)) parallel ∨
        Offset.EndsMeet tolerance (Offset.thin tolerance (ring.map (· + shift))) ∨
        MovedEndsMeet (ring.map (· + shift)) parallel := by
  by_cases stays : StaysInPlace (ring.map (· + shift)) parallel
  · rw [path_of_staysInPlace ring shift parallel stays]
    exact iff_of_true closed (.inl stays)
  · obtain ⟨line, found, drawn⟩ := path_of_line ring shift parallel stays
    have outlines := Offset.outlines_of_line Point.unit? tolerance _ parallel line found
    rw [drawn, Path.isClosed_polyline_iff, and_iff_right outlines.long, or_iff_right stays]
    by_cases meets : Offset.EndsMeet tolerance (Offset.thin tolerance (ring.map (· + shift)))
    · have kept := Offset.length_thin_of_endsMeet tolerance _ meets
        (outlines.length_eq ▸ outlines.long)
      exact iff_of_true (endsMeet_of_same_ends line (finite_line line found) outlines.long
        (outlines.closed ⟨kept, meets⟩)) (.inl meets)
    · obtain ⟨begins, ends⟩ := outlines.opened fun both => meets both.2
      rw [or_iff_right meets, Offset.EndsMeet, MovedEndsMeet, begins, ends, movedEdges]
      simp only [Option.mem_map, exists_exists_and_eq_and]

/-- A ring is closed where it has two points or more and its ends are within the closing tolerance.
An offset leaves it closed exactly if the ring stays in place, if the ends that are kept of it meet
within the tolerance of offset lines, or if its first and last edge still meet once moved. So a
finite ring that ends where it begins stays closed. -/
theorem offset_keeps_closed (finite : ∀ p ∈ ring.map (· + shift), p.IsFinite) :
    ((path ring shift 0).isClosed = true ↔
      2 ≤ ring.length ∧ Offset.EndsMeet Path.closingTolerance (ring.map (· + shift))) ∧
    ((path ring shift 0).isClosed = true →
      ((path ring shift parallel).isClosed = true ↔
        StaysInPlace (ring.map (· + shift)) parallel ∨
          Offset.EndsMeet tolerance (Offset.thin tolerance (ring.map (· + shift))) ∨
          MovedEndsMeet (ring.map (· + shift)) parallel)) ∧
    (2 ≤ ring.length → Returns (ring.map (· + shift)) →
      (path ring shift parallel).isClosed = true) := by
  have closed_iff : (path ring shift 0).isClosed = true ↔
      2 ≤ ring.length ∧ Offset.EndsMeet Path.closingTolerance (ring.map (· + shift)) := by
    rw [path_zero, Path.isClosed_polyline_iff, List.length_map]
  refine ⟨closed_iff, isClosed_path_iff ring shift parallel finite_line, ?_⟩
  intro long returns
  have closed : (path ring shift 0).isClosed = true := by
    obtain ⟨first, begins, last, ends, same⟩ := returns
    refine closed_iff.mpr ⟨long, first, begins, last, ends, ?_⟩
    exact Point.near_of_beq _ closingTolerance_number closingTolerance_nonneg _ _
      (finite first (List.mem_of_head? begins)) (finite last (List.mem_of_getLast? ends)) same
  rw [isClosed_path_iff ring shift parallel finite_line closed]
  exact .inr (.inl (endsMeet_of_returns _ finite returns))

end Finite

def gable : Ring := [⟨0, 0⟩, ⟨4, 0⟩, ⟨4, 3⟩, ⟨1e-13, 0⟩, ⟨0, 0⟩]

theorem gable_stays_closed :
    2 ≤ gable.length ∧ Returns (gable.map (· + Point.origin)) ∧
      (Offset.thin tolerance (gable.map (· + Point.origin))).length = 4 ∧
      (∀ p ∈ gable.map (· + Point.origin), p.IsFinite) ∧
      (∀ line, offset? (gable.map (· + Point.origin)) 1 = some line → ∀ p ∈ line, p.IsFinite) ∧
      (path gable Point.origin 1).isClosed = true := by
  have finite_of_all (points : Ring)
      (all : points.all (fun p => p.x.isFinite && p.y.isFinite) = true) :
      ∀ p ∈ points, p.IsFinite := by
    intro p member
    obtain ⟨x, y⟩ := Bool.and_eq_true_iff.mp (List.all_eq_true.mp all p member)
    exact ⟨x, y⟩
  have finite := finite_of_all (gable.map (· + Point.origin)) (by decide +kernel)
  have finite_line : ∀ line, offset? (gable.map (· + Point.origin)) 1 = some line →
      ∀ p ∈ line, p.IsFinite := by
    have computed : (offset? (gable.map (· + Point.origin)) 1).all
        (·.all fun p => p.x.isFinite && p.y.isFinite) = true := by decide +kernel
    intro line found
    rw [found] at computed
    exact finite_of_all line computed
  have returns : Returns (gable.map (· + Point.origin)) :=
    ⟨Point.origin + Point.origin, rfl, Point.origin + Point.origin, rfl, by decide +kernel⟩
  exact ⟨by decide, returns, by decide +kernel, finite, finite_line,
    (offset_keeps_closed gable Point.origin 1 finite_line finite).2.2 (by decide) returns⟩

def nearlySquare : Ring := [⟨0, 0⟩, ⟨10, 0⟩, ⟨10, 10⟩, ⟨0, 10⟩, ⟨0, 1e-10⟩]

theorem nearlySquare_opens :
    (nearlySquare.map (· + Point.origin)).all (fun p => p.x.isFinite && p.y.isFinite) = true ∧
      (offset? (nearlySquare.map (· + Point.origin)) 1).any
        (·.all fun p => p.x.isFinite && p.y.isFinite) = true ∧
      (path nearlySquare Point.origin 0).isClosed = true ∧
      (path nearlySquare Point.origin 1).isClosed = false := by
  decide +kernel

end Ring
end Cartograph
