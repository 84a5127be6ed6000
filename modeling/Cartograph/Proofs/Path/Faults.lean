import Mathlib
import Cartograph.Proofs.Path.Grammar

/-! Where a text stops being a path. The reader stops at the first token that no path can go on
with: what it has read until then can always be completed, with zeros for the operands that are
missing, and what follows has no part in the fault. -/

namespace Cartograph.Path

namespace Kind

def count : Kind → Nat
  | move | line => 2
  | curve => 6
  | horizontal | vertical => 1

theorem count_pos (kind : Kind) : 0 < kind.count := by cases kind <;> decide

theorem command_eq_none_iff {α : Type} (kind : Kind) (mode : Mode) (gathered : List α) :
    kind.command? mode gathered = none ↔ gathered.length ≠ kind.count := by
  constructor
  · intro incomplete full
    cases kind with
    | move | line =>
      obtain ⟨x, y, rfl⟩ := List.length_eq_two.mp full
      cases incomplete
    | curve =>
      match gathered, full with
      | [_, _, _, _, _, _], _ => cases incomplete
    | horizontal | vertical =>
      obtain ⟨x, rfl⟩ := List.length_eq_one_iff.mp full
      cases incomplete
  · intro other
    unfold command?
    split
    · exact absurd rfl other
    · exact absurd rfl other
    · exact absurd rfl other
    · exact absurd rfl other
    · exact absurd rfl other
    · rfl

end Kind

theorem ofChar_eq_none_iff (c : Char) :
    Letter.ofChar? c = none ↔ c ∉ "MLCVHZmlcvhz".toList := by
  constructor
  · intro unknown member
    have known : "MLCVHZmlcvhz".toList.all fun c => (Letter.ofChar? c).isSome := by decide +kernel
    have named := List.all_eq_true.mp known c member
    rw [unknown] at named
    cases named
  · intro other
    unfold Letter.ofChar?
    split <;> first | rfl | exact absurd (by decide) other

namespace Reading

theorem bind_eq_error_iff {α β : Type} (first : Except Fault α) (next : α → Except Fault β)
    (fault : Fault) :
    first >>= next = .error fault ↔
      first = .error fault ∨ ∃ value, first = .ok value ∧ next value = .error fault := by
  cases first with
  | error other => simp [bind, Except.bind]
  | ok value => simp [bind, Except.bind]

section Steps

variable {reading : Reading} {index : Nat} {token : Token} {rest : List Token} {fault : Fault}

theorem index_of_number {text : List Char} (failed : number index text = .error fault) :
    fault.index? = some index := by
  unfold number at failed
  split at failed <;> cases failed
  rfl

theorem index_of_numbers {startsPoint : Bool}
    (failed : numbers index startsPoint token = .error fault) :
    fault.index? = some index := by
  unfold numbers at failed
  split at failed
  · simp only [bind_eq_error_iff] at failed
    rcases failed with first | ⟨x, -, second | ⟨y, -, done⟩⟩
    · exact index_of_number first
    · exact index_of_number second
    · cases done
  · rw [bind_eq_error_iff] at failed
    rcases failed with single | ⟨x, -, done⟩
    · exact index_of_number single
    · cases done

theorem index_of_operand (failed : reading.operand index token = .error fault) :
    fault.index? = some index := by
  obtain ⟨letter, gathered⟩ := reading
  cases letter with
  | close =>
    cases failed
    rfl
  | operands kind mode =>
    simp only [operand, bind_eq_error_iff] at failed
    rcases failed with wrong | ⟨more, -, done⟩
    · exact index_of_numbers wrong
    · split at done <;> cases done

/-- A letter that is no command is named where a command could stand; all other faults of a
command token say where it is. -/
theorem command_eq_error (failed : reading.command index token rest = .error fault) :
    fault.index? = some index ∨ reading.gathered = [] ∧
      ∃ c, token = [c] ∧ Letter.ofChar? c = none ∧ fault = .unsupported c := by
  by_cases idle : reading.gathered = []
  · simp only [command, ne_eq, idle, not_true_eq_false, ↓reduceIte, bind_eq_error_iff] at failed
    rcases failed with wrong | ⟨⟨c, named⟩, -, lacking⟩
    · unfold Path.letter at wrong
      split at wrong
      · next c =>
        split at wrong
        · cases wrong
        · next unknown =>
          cases wrong
          exact .inr ⟨idle, c, rfl, unknown, rfl⟩
      · cases wrong
        exact .inl rfl
    · cases named with
      | close => cases lacking
      | operands kind mode =>
        simp only at lacking
        split at lacking <;> cases lacking
        exact .inl rfl
  · rw [command, if_pos idle] at failed
    cases failed
    exact .inl rfl

theorem step_eq_error (failed : reading.step index token rest = .error fault) :
    fault.index? = some index ∨ reading.gathered = [] ∧ isCommand token = true ∧
      ∃ c, token = [c] ∧ Letter.ofChar? c = none ∧ fault = .unsupported c := by
  by_cases letter : isCommand token = true
  · rw [step, if_pos letter] at failed
    rcases command_eq_error failed with placed | ⟨idle, unknown⟩
    · exact .inl placed
    · exact .inr ⟨idle, letter, unknown⟩
  · rw [step, if_neg letter] at failed
    exact .inl (index_of_operand failed)

theorem step_unknown {c : Char} (letter : c.isAlpha = true) (unknown : Letter.ofChar? c = none)
    (idle : reading.gathered = []) :
    reading.step index [c] rest = .error (.unsupported c) := by
  have command : isCommand [c] = true := letter
  rw [step, if_pos command, Reading.command, if_neg (not_not.mpr idle), Path.letter, unknown]
  rfl

theorem step_congr {others : List Token} (same : rest.head? = others.head?) :
    reading.step index token rest = reading.step index token others := by
  unfold step command
  rw [same]

end Steps

section Runs

/-- The reader gets through these tokens, with the others next, and remembers `last` after them. -/
inductive Passes : Reading → List Token → List Token → Path → Reading → Prop
  | here {reading : Reading} {after : List Token} : Passes reading [] after [] reading
  | on {reading last : Reading} {token : Token} {rest after : List Token}
      {result : Path × Reading} {path : Path} (taken : Takes reading token (rest ++ after) result)
      (others : Passes result.2 rest after path last) :
      Passes reading (token :: rest) after (result.1 ++ path) last

inductive Stops (reading : Reading) (index : Nat) : List Token → Fault → Prop
  | atEnd (busy : reading.gathered ≠ []) : Stops reading index [] (.missingAtEnd index)
  | atToken {token : Token} {rest : List Token} {fault : Fault}
      (failed : reading.step index token rest = .error fault) :
      Stops reading index (token :: rest) fault

theorem run_of_passes {reading last : Reading} {before after : List Token} {path : Path}
    (passes : Passes reading before after path last) (index : Nat) :
    reading.run index (before ++ after) =
      (path ++ ·) <$> last.run (index + before.length) after := by
  induction passes generalizing index with
  | here => simp
  | @on reading last token rest after result path taken others ih =>
    have step := (step_eq_ok_iff reading index token (rest ++ after) result).mpr taken
    have place : index + 1 + rest.length = index + (token :: rest).length := by
      rw [List.length_cons]
      omega
    rw [List.cons_append, run, step]
    change (do
      let others ← result.2.run (index + 1) (rest ++ after)
      return result.1 ++ others) = _
    rw [ih, place]
    cases last.run (index + (token :: rest).length) after with
    | error fault => rfl
    | ok others => exact congrArg Except.ok (List.append_assoc _ _ _).symm

theorem run_of_stops {reading : Reading} {index : Nat} {after : List Token} {fault : Fault}
    (stops : Stops reading index after fault) : reading.run index after = .error fault := by
  cases stops with
  | atEnd busy => rw [run, if_neg busy]
  | atToken failed =>
    rw [run, failed]
    rfl

theorem error_of_passes {reading last : Reading} {before after : List Token} {path : Path}
    {index : Nat} {fault : Fault} (passes : Passes reading before after path last)
    (stops : Stops last (index + before.length) after fault) :
    reading.run index (before ++ after) = .error fault := by
  rw [run_of_passes passes, run_of_stops stops]
  rfl

/-- A text that is no path has a part that the reader gets through, and a token at which it stops
or an end that comes too early. -/
theorem stops_of_run {reading : Reading} {index : Nat} {tokens : List Token} {fault : Fault}
    (failed : reading.run index tokens = .error fault) :
    ∃ before after path last, tokens = before ++ after ∧ Passes reading before after path last ∧
      Stops last (index + before.length) after fault := by
  induction tokens generalizing reading index with
  | nil =>
    unfold run at failed
    split at failed
    · cases failed
    · next busy =>
      cases failed
      exact ⟨[], [], [], reading, rfl, .here, .atEnd busy⟩
  | cons token rest ih =>
    simp only [run, bind_eq_error_iff] at failed
    rcases failed with first | ⟨result, first, later | ⟨others, -, done⟩⟩
    · exact ⟨[], token :: rest, [], reading, rfl, .here, .atToken first⟩
    · obtain ⟨before, after, path, last, rfl, passes, stops⟩ := ih later
      have taken := (step_eq_ok_iff _ _ _ _ _).mp first
      refine ⟨token :: before, after, _, last, rfl, .on taken passes, ?_⟩
      have place : index + (token :: before).length = index + 1 + before.length := by
        rw [List.length_cons]
        omega
      rwa [place]
    · cases done

theorem passes_of_reads {reading : Reading} {tokens : List Token} {path : Path}
    (reads : Reads reading tokens path) :
    ∃ last, Passes reading tokens [] path last ∧ last.gathered = [] := by
  induction reads with
  | done => exact ⟨_, .here, rfl⟩
  | step taken others ih =>
    obtain ⟨last, passes, idle⟩ := ih
    exact ⟨last, .on (by rwa [List.append_nil]) passes, idle⟩

/-- What may come instead of the tokens after a part that has been read: only a letter that takes
operands needs one of them next. -/
def Agrees (last : Reading) (after others : List Token) : Prop :=
  last.letter = .close ∨
    (after.head?.all isCommand = false → others.head?.all isCommand = false)

theorem takes_of_agrees {reading : Reading} {token : Token} {rest others : List Token}
    {result : Path × Reading} (taken : Takes reading token rest result)
    (agrees : Agrees result.2 rest others) : Takes reading token others result := by
  cases taken with
  | close named => exact .close named
  | letter named next =>
    rcases agrees with closed | operand
    · cases closed
    · exact .letter named (operand next)
  | operand operand numbers => exact .operand operand numbers

theorem passes_of_agrees {reading last : Reading} {before after others : List Token} {path : Path}
    (passes : Passes reading before after path last) (agrees : Agrees last after others) :
    Passes reading before others path last := by
  induction passes with
  | here => exact .here
  | @on reading last token rest after result path taken further ih =>
    refine .on (takes_of_agrees taken ?_) (ih agrees)
    cases rest with
    | nil =>
      cases further
      exact agrees
    | cons next later => exact .inr id

end Runs

section Completion

def Fits (reading : Reading) : Prop :=
  match reading.letter with
  | .close => reading.gathered = []
  | .operands kind _ => reading.gathered.length < kind.count

theorem length_of_operand {kind : Kind} {gathered more : List Float} {token : Token}
    (room : gathered.length < kind.count)
    (operand : Operand (kind.takesPoints && gathered.length % 2 == 0) token more) :
    (gathered ++ more).length ≤ kind.count := by
  rw [List.length_append]
  cases operand with
  | number whole read => exact room
  | pair starts cut left right =>
    -- A pair begins a point, and no command takes half a point.
    simp only [Bool.and_eq_true, beq_iff_eq] at starts
    obtain ⟨points, even⟩ := starts
    cases kind with
    | horizontal | vertical => cases points
    | move | line | curve =>
      simp only [Kind.count, List.length_cons, List.length_nil] at room ⊢
      omega

theorem fits_of_takes {reading : Reading} {token : Token} {rest : List Token}
    {result : Path × Reading} (taken : Takes reading token rest result) (fits : Fits reading) :
    Fits result.2 := by
  cases taken with
  | close named => rfl
  | @letter _ _ kind _ _ named next => exact kind.count_pos
  | @operand kind mode gathered more _ _ operand numbers =>
    have full := length_of_operand fits numbers
    unfold settle
    split
    · exact kind.count_pos
    · next incomplete =>
      have other := (kind.command_eq_none_iff mode _).mp incomplete
      exact Nat.lt_of_le_of_ne full other

theorem fits_of_passes {reading last : Reading} {before after : List Token} {path : Path}
    (passes : Passes reading before after path last) (fits : Fits reading) : Fits last := by
  induction passes with
  | here => exact fits
  | on taken others ih => exact ih (fits_of_takes taken fits)

def zero : Token := ['0']

theorem operand_zero (startsPoint : Bool) : Operand startsPoint zero [0] := .number (.inr rfl) rfl

theorem reads_zeros (kind : Kind) (mode : Mode) (missing : Nat) (gathered : List Float)
    (room : gathered.length + missing + 1 = kind.count) :
    ∃ path, Reads ⟨.operands kind mode, gathered⟩ (List.replicate (missing + 1) zero) path := by
  induction missing generalizing gathered with
  | zero =>
    have full : (gathered ++ [(0 : Float)]).length = kind.count := by
      rw [List.length_append, List.length_singleton]
      omega
    have last : Reads (settle kind mode (gathered ++ [0])).2 [] [] := by
      unfold settle
      split
      · exact .done
      · next incomplete => exact absurd full ((kind.command_eq_none_iff mode _).mp incomplete)
    exact ⟨_, .step (.operand rfl (operand_zero _)) last⟩
  | succ missing ih =>
    have incomplete : kind.command? mode (gathered ++ [(0 : Float)]) = none := by
      rw [kind.command_eq_none_iff, List.length_append, List.length_singleton]
      omega
    obtain ⟨path, others⟩ := ih (gathered ++ [0]) (by
      rw [List.length_append, List.length_singleton]
      omega)
    have next :
        (settle kind mode (gathered ++ [0])).2 = ⟨.operands kind mode, gathered ++ [0]⟩ := by
      rw [settle, incomplete]
    rw [← next] at others
    exact ⟨_, .step (.operand rfl (operand_zero _)) others⟩

theorem run_completed {reading last : Reading} {before after : List Token} {path : Path}
    (passes : Passes reading before after path last) (fits : Fits last) (index : Nat) :
    ∃ missing whole, reading.run index (before ++ List.replicate missing zero) = .ok whole := by
  obtain ⟨letter, gathered⟩ := last
  cases letter with
  | close =>
    obtain rfl : gathered = [] := fits
    have further : Passes reading before [] path _ := passes_of_agrees passes (.inl rfl)
    exact ⟨0, _, run_of_passes further index⟩
  | operands kind mode =>
    have room : gathered.length < kind.count := fits
    obtain ⟨missing, full⟩ := Nat.exists_eq_add_of_lt room
    obtain ⟨rest, reads⟩ := reads_zeros kind mode missing gathered full.symm
    have further : Passes reading before (List.replicate (missing + 1) zero) path _ :=
      passes_of_agrees passes (.inr fun _ => rfl)
    have others := run_of_passes further index
    rw [(run_eq_ok_iff _ _ _ _).mpr reads] at others
    exact ⟨missing + 1, _, others⟩

end Completion

theorem fits_start : Fits start := Nat.zero_lt_two

theorem stops_of_ofTokens {tokens : List Token} {fault : Fault}
    (failed : ofTokens tokens = .error fault) :
    ∃ before after path last, tokens = before ++ after ∧ Passes start before after path last ∧
      Stops last before.length after fault := by
  obtain ⟨before, after, path, last, split, passes, stops⟩ := stops_of_run failed
  rw [Nat.zero_add] at stops
  exact ⟨before, after, path, last, split, passes, stops⟩

theorem index_of_stops {reading : Reading} {place index : Nat} {after : List Token} {fault : Fault}
    (stops : Stops reading place after fault) (found : fault.index? = some index) :
    index = place := by
  cases stops with
  | atEnd busy => exact (Option.some.inj found).symm
  | atToken failed =>
    rcases step_eq_error failed with placed | ⟨-, -, c, -, -, rfl⟩
    · exact Option.some.inj (found.symm.trans placed)
    · cases found

theorem stops_congr {reading : Reading} {index : Nat} {token next : Token}
    {rest others : List Token} {fault : Fault}
    (stops : Stops reading index (token :: next :: rest) fault) :
    Stops reading index (token :: next :: others) fault := by
  cases stops with
  | atToken failed =>
    refine .atToken ?_
    rwa [step_congr (show (next :: others).head? = (next :: rest).head? from rfl)]

end Reading

open Reading

theorem fault_of_same_beginning {before after others : List Token} {path : Path} {last : Reading}
    {fault : Fault} (passes : Passes start before after path last)
    (stops : Stops last before.length after fault) (long : 1 < after.length)
    (same : others.take (before.length + 2) = (before ++ after).take (before.length + 2)) :
    ofTokens others = .error fault := by
  match after, long with
  | token :: next :: rest, _ =>
    have beginning : others.take (before.length + 2) = before ++ [token, next] := by
      rw [same, List.take_length_add_append]
      rfl
    obtain ⟨further, rfl⟩ : ∃ further, others = before ++ token :: next :: further := by
      refine ⟨others.drop (before.length + 2), ?_⟩
      conv_lhs => rw [← List.take_append_drop (before.length + 2) others, beginning]
      rw [List.append_assoc]
      rfl
    refine error_of_passes (passes_of_agrees passes (.inr id)) ?_
    rw [Nat.zero_add]
    exact stops_congr stops

theorem unsupported_iff (tokens : List Token) (c : Char) :
    ofTokens tokens = .error (.unsupported c) ↔
      ∃ j, (∃ path, ofTokens (tokens.take j) = .ok path) ∧ tokens[j]? = some [c] ∧
        c.isAlpha = true ∧ c ∉ "MLCVHZmlcvhz".toList := by
  constructor
  · intro failed
    obtain ⟨before, after, path, last, rfl, passes, stops⟩ := stops_of_ofTokens failed
    cases stops with
    | @atToken token rest _ failed =>
      rcases step_eq_error failed with placed | ⟨idle, letter, d, rfl, unknown, named⟩
      · cases placed
      · cases named
        refine ⟨before.length, ⟨path, ?_⟩, by simp, letter, (ofChar_eq_none_iff c).mp unknown⟩
        have ends : Agrees last ([c] :: rest) [] := by
          refine .inr fun operand => ?_
          rw [List.head?_cons, Option.all_some, letter] at operand
          cases operand
        have alone := run_of_passes (passes_of_agrees passes ends) 0
        rw [List.append_nil, run, if_pos idle] at alone
        rw [List.take_left, ofTokens, alone]
        exact congrArg Except.ok (List.append_nil path)
  · rintro ⟨j, ⟨path, accepted⟩, found, letter, other⟩
    obtain ⟨inside, at_j⟩ := List.getElem?_eq_some_iff.mp found
    have length : (tokens.take j).length = j := List.length_take_of_le inside.le
    obtain ⟨last, passes, idle⟩ := passes_of_reads ((run_eq_ok_iff _ _ _ _).mp accepted)
    have split : tokens = tokens.take j ++ [c] :: tokens.drop (j + 1) := by
      rw [← at_j, ← List.drop_eq_getElem_cons inside, List.take_append_drop]
    have further : Passes start (tokens.take j) ([c] :: tokens.drop (j + 1)) path last :=
      passes_of_agrees passes (.inr fun next => by cases next)
    rw [split]
    exact error_of_passes further
      (.atToken (step_unknown letter ((ofChar_eq_none_iff c).mpr other) idle))

/-- A fault is found as soon as it can be: what stands before it begins a path, and what stands
after the token behind it does not matter. -/
theorem faults_found_at_once (tokens : List Token) :
    (∀ fault i, ofTokens tokens = .error fault → fault.index? = some i →
      i ≤ tokens.length ∧
      (∃ missing path, ofTokens (tokens.take i ++ List.replicate missing zero) = .ok path) ∧
      (i + 1 < tokens.length → ∀ others : List Token, others.take (i + 2) = tokens.take (i + 2) →
        ofTokens others = .error fault)) ∧
    ∀ c, ofTokens tokens = .error (.unsupported c) ↔
      ∃ j, (∃ path, ofTokens (tokens.take j) = .ok path) ∧ tokens[j]? = some [c] ∧
        c.isAlpha = true ∧ c ∉ "MLCVHZmlcvhz".toList := by
  refine ⟨fun fault i failed found => ?_, unsupported_iff tokens⟩
  obtain ⟨before, after, path, last, rfl, passes, stops⟩ := stops_of_ofTokens failed
  obtain rfl := index_of_stops stops found
  refine ⟨by simp, ?_, fun long others same => ?_⟩
  · rw [List.take_left]
    exact run_completed passes (fits_of_passes passes fits_start) 0
  · refine fault_of_same_beginning passes stops ?_ same
    rw [List.length_append] at long
    omega

def halfCurve : List Token := ["C".toList, "0,0".toList, "1".toList, "Q".toList, "5".toList]

theorem halfCurve_fault :
    ofTokens halfCurve = .error (.missingBefore 3 "Q".toList) ∧
    (∃ missing path,
      ofTokens (["C".toList, "0,0".toList, "1".toList] ++ List.replicate missing zero) = .ok path) ∧
    (∀ rest, ofTokens (halfCurve ++ rest) = .error (.missingBefore 3 "Q".toList)) ∧
    ofTokens ["M".toList, "1,2".toList, "Q".toList, "x".toList] = .error (.unsupported 'Q') := by
  have failed : ofTokens halfCurve = .error (.missingBefore 3 "Q".toList) := rfl
  obtain ⟨-, completed, same⟩ := (faults_found_at_once halfCurve).1 _ 3 failed rfl
  refine ⟨failed, completed, fun rest => same (by decide) _ rfl, ?_⟩
  refine ((faults_found_at_once _).2 'Q').mpr ⟨2, ⟨[.move ⟨1, 2⟩ .absolute], rfl⟩, rfl, rfl, ?_⟩
  decide +kernel

end Cartograph.Path
