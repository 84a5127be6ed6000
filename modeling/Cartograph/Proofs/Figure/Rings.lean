import Cartograph.Figure.Basic
import Cartograph.Proofs.Path.Contour

/-! Figures drawn with one pen. Every ring adds its own events to those of the rings before it,
but an open ring leaves its contour open, and the next closed ring then returns to where that
contour began. Rings of which no closed one comes after an open one are drawn independently. -/

namespace Cartograph.Rings

open Contour

section Events

variable {α : Type}

def closes (own : List (PenEvent α)) : Bool := own.getLast?.any isClose

def leavesOpen (own : List (PenEvent α)) : Bool := !own.isEmpty && !closes own

/-- No ring closes after another one has left its contour open. -/
def Apart (parts : List (List (PenEvent α))) : Prop :=
  parts.Pairwise fun earlier later => leavesOpen earlier → closes later = false

instance (parts : List (List (PenEvent α))) : Decidable (Apart parts) :=
  inferInstanceAs (Decidable (parts.Pairwise _))

def redirect (target : Point α) : List (PenEvent α) → List (PenEvent α)
  | [] => []
  | [.line _, .close] => [.line target, .close]
  | event :: rest => event :: redirect target rest

def extend (drawn own : List (PenEvent α)) : List (PenEvent α) :=
  match beginning? drawn with
  | some start => drawn ++ redirect start own
  | none => drawn ++ own

theorem redirect_of_open (target : Point α) (own : List (PenEvent α)) (stays : closes own = false) :
    redirect target own = own := by
  fun_induction redirect target own with
  | case1 => rfl
  | case2 p => cases stays
  | case3 event rest other ih =>
    cases rest with
    | nil => rfl
    | cons next later => rw [ih stays]

theorem redirect_close (target p : Point α) (lines : List (Point α)) :
    redirect target (lines.map .line ++ [.line p, .close]) =
      lines.map .line ++ [.line target, .close] := by
  induction lines with
  | nil => rfl
  | cons q rest ih =>
    cases rest with
    | nil => rfl
    | cons r others => exact congrArg (PenEvent.line q :: ·) ih

theorem extend_eq_append (drawn own : List (PenEvent α))
    (apart : beginning? drawn = none ∨ closes own = false) : extend drawn own = drawn ++ own := by
  unfold extend
  split
  · next start found =>
    rcases apart with none_open | stays
    · rw [none_open] at found
      cases found
    · rw [redirect_of_open start own stays]
  · rfl

theorem beginning_of_closes (drawn own : List (PenEvent α)) (ends : closes own = true) :
    beginning? (drawn ++ own) = none := by
  obtain ⟨event, last, close⟩ := (Option.any_eq_true _ _).mp ends
  obtain ⟨earlier, rfl⟩ := List.getLast?_eq_some_iff.mp last
  cases event with
  | close =>
    rw [← List.append_assoc]
    exact beginning_close _
  | move p => cases close
  | line p => cases close
  | curve p q r => cases close

theorem foldl_extend (drawn : List (PenEvent α)) (parts : List (List (PenEvent α)))
    (ordered : Apart parts)
    (apart : beginning? drawn = none ∨ ∀ part ∈ parts, closes part = false) :
    parts.foldl extend drawn = drawn ++ parts.flatten := by
  -- Before every part either no contour is open or no part to come has a close.
  induction parts generalizing drawn with
  | nil => simp
  | cons part rest ih =>
    obtain ⟨after, rest_ordered⟩ := List.pairwise_cons.mp ordered
    have first : beginning? drawn = none ∨ closes part = false :=
      apart.imp_right fun all => all part List.mem_cons_self
    have later : beginning? (drawn ++ part) = none ∨ ∀ other ∈ rest, closes other = false := by
      cases ends : closes part with
      | true => exact .inl (beginning_of_closes drawn part ends)
      | false =>
        cases part with
        | nil =>
          rw [List.append_nil]
          exact apart.imp_right fun all other member => all other (List.mem_cons_of_mem _ member)
        | cons event events =>
          exact .inr fun other member => after other member (by simp [leavesOpen, ends])
    rw [List.foldl_cons, extend_eq_append drawn part first, ih _ rest_ordered later,
      List.flatten_cons, List.append_assoc]

def traced (first : Point α) (others : List (Point α)) : List (PenEvent α) :=
  .move first :: others.map .line

theorem closes_traced (first : Point α) (others : List (Point α)) :
    closes (traced first others) = false := by
  rw [closes, Option.any_eq_false]
  intro event last
  rcases List.mem_cons.mp (List.mem_of_getLast? last) with rfl | line
  · rfl
  · obtain ⟨p, -, rfl⟩ := List.mem_map.mp line
    rfl

end Events

section Run

variable {α : Type} [Add α] [OfNat α 0]

theorem run_cons (pen : Pen α) (command : Command α) (rest : List (Command α)) :
    pen.run (command :: rest) = (pen.step command).2 ++ (pen.step command).1.run rest := rfl

theorem run_append (history : List (PenEvent α)) (pen : Pen α) (first : List (Command α))
    (known : Remembers history pen) :
    ∃ next, (∀ second, pen.run (first ++ second) = pen.run first ++ next.run second) ∧
      Remembers (history ++ pen.run first) next := by
  induction first generalizing history pen with
  | nil => exact ⟨pen, fun _ => rfl, by simpa [Pen.run] using known⟩
  | cons command rest ih =>
    obtain ⟨next, splits, knows⟩ := ih _ _ (continues_step history pen command known).2
    refine ⟨next, fun second => ?_, ?_⟩
    · rw [List.cons_append, run_cons, run_cons, splits, List.append_assoc]
    · rwa [run_cons, ← List.append_assoc]

def trace (first : Point α) (others : List (Point α)) : List (Command α) :=
  .move first .absolute :: others.map (.line · .absolute)

theorem run_lines (start current : Point α) (lines : List (Point α)) (rest : List (Command α)) :
    ∃ last, (Pen.drawing start current).run (lines.map (.line · .absolute) ++ rest) =
      lines.map .line ++ (Pen.drawing start last).run rest := by
  induction lines generalizing current with
  | nil => exact ⟨current, rfl⟩
  | cons p others ih =>
    obtain ⟨last, drawn⟩ := ih p
    exact ⟨last, congrArg (PenEvent.line p :: ·) drawn⟩

theorem run_trace (pen : Pen α) (first : Point α) (others : List (Point α))
    (rest : List (Command α)) :
    ∃ last, pen.run (trace first others ++ rest) =
      traced first others ++
        (Pen.drawing (pen.moveTo first).1.opening.1 last).run rest := by
  cases pen with
  | lifted p =>
    obtain ⟨last, drawn⟩ := run_lines first first others rest
    exact ⟨last, congrArg (PenEvent.move first :: ·) drawn⟩
  | drawing start p =>
    obtain ⟨last, drawn⟩ := run_lines start first others rest
    exact ⟨last, congrArg (PenEvent.move first :: ·) drawn⟩

theorem run_open (pen : Pen α) (first : Point α) (others : List (Point α)) :
    pen.run (trace first others) = traced first others := by
  obtain ⟨last, drawn⟩ := run_trace pen first others []
  simpa [Pen.run] using drawn

theorem run_loop (pen : Pen α) (first : Point α) (others : List (Point α)) :
    pen.run (trace first others ++ [.close]) =
      traced first others ++ [.line (pen.moveTo first).1.opening.1, .close] := by
  obtain ⟨last, drawn⟩ := run_trace pen first others [.close]
  exact drawn

theorem extend_open (history : List (PenEvent α)) (pen : Pen α) (first : Point α)
    (others : List (Point α)) :
    history ++ pen.run (trace first others) =
      extend history (Path.events (trace first others)) := by
  have alone : Path.events (trace first others) = traced first others := run_open _ first others
  rw [run_open, alone, extend_eq_append _ _ (.inr (closes_traced first others))]

/-- The close returns to where the open contour began, or to the ring itself if there was none. -/
theorem extend_loop (history : List (PenEvent α)) (pen : Pen α) (first : Point α)
    (others : List (Point α)) (known : Remembers history pen) :
    history ++ pen.run (trace first others ++ [.close]) =
      extend history (Path.events (trace first others ++ [.close])) := by
  have alone : Path.events (trace first others ++ [.close]) =
      traced first others ++ [.line first, .close] := run_loop _ first others
  cases pen with
  | lifted p =>
    rw [run_loop, alone, extend_eq_append _ _ (.inl known)]
    rfl
  | drawing start p =>
    have opened : beginning? history = some start := known
    have led : redirect start (traced first others ++ [.line first, .close]) =
        traced first others ++ [.line start, .close] :=
      congrArg (PenEvent.move first :: ·) (redirect_close start first others)
    rw [run_loop, alone, extend, opened]
    exact congrArg (history ++ ·) led.symm

end Run

theorem polyline_cons (first : Point Float) (others : List (Point Float)) :
    Path.polyline (first :: others) = trace first others ∨
      Path.polyline (first :: others) = trace first others ++ [.close] := by
  cases last : others.getLast? with
  | none => exact .inl (by simp [Path.polyline, trace, last])
  | some p =>
    cases near : first.near p 1e-9 with
    | true => exact .inr (by simp [Path.polyline, trace, last, near])
    | false => exact .inl (by simp [Path.polyline, trace, last, near])

theorem run_polyline (history : List (PenEvent Float)) (pen : Pen Float)
    (points : List (Point Float)) (known : Remembers history pen) :
    history ++ pen.run (Path.polyline points) =
      extend history (Path.events (Path.polyline points)) := by
  cases points with
  | nil =>
    have nothing : closes (Path.events (Path.polyline [])) = false := rfl
    rw [extend_eq_append _ _ (.inr nothing)]
    rfl
  | cons first others =>
    rcases polyline_cons first others with shape | shape
    · rw [shape, extend_open]
    · rw [shape, extend_loop history pen first others known]

theorem run_rings (history : List (PenEvent Float)) (pen : Pen Float) (paths : List Path)
    (outlined : ∀ path ∈ paths, ∃ points, path = Path.polyline points)
    (known : Remembers history pen) :
    history ++ pen.run paths.flatten = (paths.map Path.events).foldl extend history := by
  induction paths generalizing history pen with
  | nil => exact List.append_nil history
  | cons path rest ih =>
    obtain ⟨points, rfl⟩ := outlined path List.mem_cons_self
    obtain ⟨next, splits, knows⟩ := run_append history pen (Path.polyline points) known
    have others (path : Path) (member : path ∈ rest) : ∃ points, path = Path.polyline points :=
      outlined path (List.mem_cons_of_mem _ member)
    rw [List.flatten_cons, splits, ← List.append_assoc, ih _ next others knows,
      run_polyline history pen points known, List.map_cons, List.foldl_cons]

def alone (figure : Figure) (shift : Point Float) (parallel : Float) :
    List (List (PenEvent Float)) :=
  (figure.outers ++ figure.inners).map fun ring => Path.events (Ring.path ring shift parallel)

/-- A figure is its rings one after the other, where an open contour decides to which place the
next close returns. -/
theorem rings_drawn_in_turn (figure : Figure) (shift : Point Float) (parallel : Float) :
    Path.events (figure.parallelPath shift parallel) =
        (alone figure shift parallel).foldl extend [] ∧
      (Apart (alone figure shift parallel) →
        Path.events (figure.parallelPath shift parallel) =
          (alone figure shift parallel).flatten) := by
  have outlined : ∀ path ∈ figure.rings.map fun ring => Ring.path ring shift parallel,
      ∃ points, path = Path.polyline points := by
    intro path member
    obtain ⟨ring, -, rfl⟩ := List.mem_map.mp member
    exact ⟨_, rfl⟩
  have together : Path.events (figure.parallelPath shift parallel) =
      (alone figure shift parallel).foldl extend [] := by
    have drawn := run_rings [] (Pen.lifted Point.origin) _ outlined rfl
    rw [List.map_map] at drawn
    rw [Figure.parallelPath, List.flatMap_def]
    exact drawn
  refine ⟨together, fun apart => ?_⟩
  rw [together, foldl_extend [] _ apart (.inl rfl), List.nil_append]

def lineAndLoop : Figure :=
  ⟨Table.empty, [], [[⟨0, 0⟩, ⟨1, 0⟩], [⟨5, 5⟩, ⟨6, 5⟩, ⟨6, 6⟩, ⟨5, 5⟩]]⟩

theorem lineAndLoop_joined :
    Path.events (lineAndLoop.parallelPath Point.origin 0) ≠
      (alone lineAndLoop Point.origin 0).flatten := by
  intro same
  have places := congrArg (List.filterMap fun event => event.endPoint?.map (·.x)) same
  revert places
  decide +kernel

def loopAndLine : Figure := { lineAndLoop with outers := lineAndLoop.outers.reverse }

theorem loopAndLine_apart :
    Apart (alone loopAndLine Point.origin 0) ∧
      Path.events (loopAndLine.parallelPath Point.origin 0) =
        (alone loopAndLine Point.origin 0).flatten := by
  have apart : Apart (alone loopAndLine Point.origin 0) := by decide +kernel
  exact ⟨apart, (rings_drawn_in_turn loopAndLine Point.origin 0).2 apart⟩

end Cartograph.Rings
