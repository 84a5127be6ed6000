import Mathlib
import Cartograph.Path.Printer
import Cartograph.Path.Reader
import Cartograph.Proofs.Number.RoundTrip

/-! Paths read back from their text. A command is read from the tokens that are written for it,
whatever came before, unless the word of an operand is taken for a letter. -/

namespace Cartograph

namespace Path

/-- Infinity and what is no number are written as words, and an operand that begins with a word
is taken for a command. -/
def Legible (x : Float) : Prop := x.isNaN = false ∧ x ≠ 1 / 0

instance (x : Float) : Decidable (Legible x) := inferInstanceAs (Decidable (_ ∧ _))

theorem isCommand_text (x : Float) : isCommand (Number.text x).toList = false ↔ Legible x := by
  cases parts : Number.ofDouble x with
  | notANumber =>
    rw [Number.eq_pack x, parts]
    decide +kernel
  | infinite negative =>
    rw [Number.eq_pack x, parts]
    cases negative <;> decide +kernel
  | finite negative mantissa exponent =>
    obtain ⟨c, rest, head, first⟩ := Number.text_finite_head x negative mantissa exponent parts
    have not_alpha : c.isAlpha = false := by
      rcases first with digit | rfl
      · have code := Number.Numeral.code_of_isDigit c digit
        have not_upper : ¬ (65 ≤ c.toNat ∧ c.toNat ≤ 90) := by omega
        have not_lower : ¬ (97 ≤ c.toNat ∧ c.toNat ≤ 122) := by omega
        simpa [Char.isAlpha, Char.isUpper, Char.isLower, UInt32.le_iff_toNat_le] using
          And.intro not_upper not_lower
      · rfl
    have not_nan : x.isNaN = false := by
      rw [Float.isNaN_eq_decide_eq_nan, decide_eq_false_iff_not]
      rintro rfl
      have other : Number.ofDouble Float.nan = .notANumber := by decide +kernel
      rw [other] at parts
      cases parts
    have not_infinite : x ≠ 1 / 0 := by
      rintro rfl
      have other : Number.ofDouble (1 / 0) = .infinite false := by decide +kernel
      rw [other] at parts
      cases parts
    rw [head]
    exact ⟨fun _ => ⟨not_nan, not_infinite⟩, fun _ => not_alpha⟩

end Path

namespace Command

def leading : Command Float → List Float
  | move p _ => [p.x]
  | line p _ => [p.x]
  | curve p q r _ => [p.x, q.x, r.x]
  | horizontal x _ => [x]
  | vertical y _ => [y]
  | close => []

def operands : Command Float → List Float
  | move p _ => [p.x, p.y]
  | line p _ => [p.x, p.y]
  | curve p q r _ => [p.x, p.y, q.x, q.y, r.x, r.y]
  | horizontal x _ => [x]
  | vertical y _ => [y]
  | close => []

def Legible (c : Command Float) : Prop := ∀ x ∈ c.leading, Path.Legible x

def initial : Command Float → Char
  | move _ .absolute => 'M'
  | move _ .relative => 'm'
  | line _ .absolute => 'L'
  | line _ .relative => 'l'
  | curve _ _ _ .absolute => 'C'
  | curve _ _ _ .relative => 'c'
  | horizontal _ .absolute => 'H'
  | horizontal _ .relative => 'h'
  | vertical _ .absolute => 'V'
  | vertical _ .relative => 'v'
  | close => 'Z'

def names : Command Float → Path.Letter
  | move _ mode => .operands .move mode
  | line _ mode => .operands .line mode
  | curve _ _ _ mode => .operands .curve mode
  | horizontal _ mode => .operands .horizontal mode
  | vertical _ mode => .operands .vertical mode
  | close => .close

theorem initial_isAlpha (c : Command Float) : c.initial.isAlpha = true := by
  rcases c with ⟨_, _ | _⟩ | ⟨_, _ | _⟩ | ⟨_, _, _, _ | _⟩ | ⟨_, _ | _⟩ | ⟨_, _ | _⟩ | _ <;> rfl

theorem ofChar_initial (c : Command Float) : Path.Letter.ofChar? c.initial = some c.names := by
  rcases c with ⟨_, _ | _⟩ | ⟨_, _ | _⟩ | ⟨_, _, _, _ | _⟩ | ⟨_, _ | _⟩ | ⟨_, _ | _⟩ | _ <;> rfl

def tokens (c : Command Float) : List Path.Token :=
  [c.initial] :: match c with
    | move p _ => [p.text.toList]
    | line p _ => [p.text.toList]
    | curve p q r _ => [p.text.toList, q.text.toList, r.text.toList]
    | horizontal x _ => [(Number.text x).toList]
    | vertical y _ => [(Number.text y).toList]
    | close => []

end Command

theorem Point.text_toList (p : Point Float) :
    p.text.toList = (Number.text p.x).toList ++ ',' :: (Number.text p.y).toList := by
  rw [Point.text, String.toList_append, String.toList_append, List.append_assoc]
  rfl

theorem Point.isWord_text (p : Point Float) : Text.IsWord p.text.toList := by
  obtain ⟨⟨-, first⟩, -⟩ := Number.isWord_text p.x
  obtain ⟨⟨-, second⟩, -⟩ := Number.isWord_text p.y
  rw [Point.text_toList]
  refine ⟨List.append_ne_nil_of_right_ne_nil _ (List.cons_ne_nil _ _), ?_⟩
  rw [List.any_append, List.any_cons, first, second]
  rfl

theorem words_append (first second : String) :
    Text.words (first ++ " " ++ second).toList =
      Text.words first.toList ++ Text.words second.toList := by
  rw [← Text.words_append, String.toList_append, String.toList_append, List.append_assoc]
  rfl

namespace Command

theorem words_text (c : Command Float) : Text.words c.text.toList = c.tokens := by
  have point (p : Point Float) := Text.words_of_isWord _ p.isWord_text
  have number (x : Float) := Text.words_of_isWord _ (Number.isWord_text x).1
  cases c with
  | move p mode =>
    rw [text, words_append, point]
    cases mode <;> rfl
  | line p mode =>
    rw [text, words_append, point]
    cases mode <;> rfl
  | curve p q r mode =>
    rw [text, words_append, words_append, words_append, point, point, point]
    cases mode <;> rfl
  | horizontal x mode =>
    rw [text, words_append, number]
    cases mode <;> rfl
  | vertical y mode =>
    rw [text, words_append, number]
    cases mode <;> rfl
  | close => rfl

end Command

theorem Path.words_text (path : Path) :
    Text.words path.text.toList = path.flatMap Command.tokens := by
  rw [Path.text, String.toList_intercalate]
  change Text.words ([' '].intercalate _) = _
  rw [Text.words_intercalate, List.map_map, List.flatMap_map]
  exact congrArg (fun words => path.flatMap words) (funext Command.words_text)

namespace Path

theorem number_text (index : Nat) (x : Float) : number index (Number.text x).toList = .ok x := by
  rw [number, Number.read_text]

theorem numbers_point (index : Nat) (p : Point Float) :
    numbers index true p.text.toList = .ok [p.x, p.y] := by
  have split := Text.splitFirst_append ',' _ (Number.text p.y).toList (Number.isWord_text p.x).2
  rw [Point.text_toList, numbers]
  simp only [↓reduceIte, split, number_text]
  rfl

theorem isCommand_point (p : Point Float) :
    isCommand p.text.toList = isCommand (Number.text p.x).toList := by
  obtain ⟨c, rest, head⟩ := List.exists_cons_of_ne_nil (Number.isWord_text p.x).1.1
  rw [Point.text_toList, head]
  rfl

theorem isCommand_of_illegible (x : Float) (illegible : ¬ Legible x) :
    isCommand (Number.text x).toList = true := by
  rw [← Bool.not_eq_false, isCommand_text]
  exact illegible

theorem point_of_legible (p : Point Float) (legible : Legible p.x) :
    isCommand p.text.toList = false :=
  (isCommand_point p).trans ((isCommand_text p.x).mpr legible)

theorem point_of_illegible (p : Point Float) (illegible : ¬ Legible p.x) :
    isCommand p.text.toList = true :=
  (isCommand_point p).trans (isCommand_of_illegible p.x illegible)

namespace Reading

variable (index : Nat) (rest : List Token) (kind : Kind) (mode : Mode)

theorem step_initial (reading : Reading) (c : Command Float) (token : Token)
    (idle : reading.gathered = []) (names : c.names = .operands kind mode) :
    reading.step index [c.initial] (token :: rest) =
      if isCommand token then .error (.withoutOperands index c.initial)
      else .ok ([], ⟨.operands kind mode, []⟩) := by
  have command : isCommand [c.initial] = true := c.initial_isAlpha
  rw [step, if_pos command, Reading.command, if_neg (not_not_intro idle), Path.letter,
    c.ofChar_initial, names]
  rfl

theorem step_point (gathered : List Float) (p : Point Float) (points : kind.takesPoints = true)
    (even : gathered.length % 2 = 0) (legible : Legible p.x) :
    (⟨.operands kind mode, gathered⟩ : Reading).step index p.text.toList rest =
      match kind.command? mode (gathered ++ [p.x, p.y]) with
      | some command => .ok ([command], ⟨.operands kind mode, []⟩)
      | none => .ok ([], ⟨.operands kind mode, gathered ++ [p.x, p.y]⟩) := by
  have operand := point_of_legible p legible
  have starts : (kind.takesPoints && gathered.length % 2 == 0) = true := by
    rw [points, even]
    rfl
  rw [step, operand]
  simp only [Bool.false_eq_true, ↓reduceIte, Reading.operand, starts, numbers_point]
  rfl

theorem step_number (x : Float) (single : kind.takesPoints = false) (legible : Legible x) :
    (⟨.operands kind mode, []⟩ : Reading).step index (Number.text x).toList rest =
      match kind.command? mode [x] with
      | some command => .ok ([command], ⟨.operands kind mode, []⟩)
      | none => .ok ([], ⟨.operands kind mode, [x]⟩) := by
  have operand : isCommand (Number.text x).toList = false := (isCommand_text x).mpr legible
  have alone : numbers index false (Number.text x).toList = .ok [x] := by
    rw [numbers]
    simp only [Bool.false_eq_true, ↓reduceIte, number_text]
    rfl
  rw [step, operand]
  simp only [Bool.false_eq_true, ↓reduceIte, Reading.operand, single, Bool.false_and, alone]
  rfl

theorem step_missing (gathered : List Float) (token : Token) (begun : gathered ≠ [])
    (command : isCommand token = true) :
    (⟨.operands kind mode, gathered⟩ : Reading).step index token rest =
      .error (.missingBefore index token) := by
  rw [step, if_pos command, Reading.command, if_pos begun]

theorem run_ok (reading next : Reading) (token : Token) (commands : List (Command Float))
    (stepped : reading.step index token rest = .ok (commands, next)) :
    reading.run index (token :: rest) = (commands ++ ·) <$> next.run (index + 1) rest := by
  rw [run, stepped]
  rfl

theorem run_error (reading : Reading) (token : Token) (fault : Fault)
    (stepped : reading.step index token rest = .error fault) :
    reading.run index (token :: rest) = .error fault := by
  rw [run, stepped]
  rfl

theorem run_initial (reading : Reading) (c : Command Float) (token : Token)
    (idle : reading.gathered = []) (names : c.names = .operands kind mode)
    (operand : isCommand token = false) :
    reading.run index ([c.initial] :: token :: rest) =
      (⟨.operands kind mode, []⟩ : Reading).run (index + 1) (token :: rest) := by
  have stepped := step_initial index rest kind mode reading c token idle names
  rw [operand] at stepped
  rw [run_ok index _ reading _ _ [] stepped]
  exact id_map _

theorem run_withoutOperands (reading : Reading) (c : Command Float) (token : Token)
    (idle : reading.gathered = []) (names : c.names = .operands kind mode)
    (command : isCommand token = true) :
    reading.run index ([c.initial] :: token :: rest) =
      .error (.withoutOperands index c.initial) := by
  have stepped := step_initial index rest kind mode reading c token idle names
  rw [command] at stepped
  exact run_error index _ reading _ _ stepped

section Points

variable (gathered : List Float) (p : Point Float) (points : kind.takesPoints = true)
  (even : gathered.length % 2 = 0) (legible : Legible p.x)

include points even legible

theorem run_gather (incomplete : kind.command? mode (gathered ++ [p.x, p.y]) = none) :
    (⟨.operands kind mode, gathered⟩ : Reading).run index (p.text.toList :: rest) =
      (⟨.operands kind mode, gathered ++ [p.x, p.y]⟩ : Reading).run (index + 1) rest := by
  have stepped := step_point index rest kind mode gathered p points even legible
  rw [incomplete] at stepped
  rw [run_ok index rest _ _ _ [] stepped]
  exact id_map _

theorem run_complete (command : Command Float)
    (complete : kind.command? mode (gathered ++ [p.x, p.y]) = some command) :
    (⟨.operands kind mode, gathered⟩ : Reading).run index (p.text.toList :: rest) =
      (command :: ·) <$> (⟨.operands kind mode, []⟩ : Reading).run (index + 1) rest := by
  have stepped := step_point index rest kind mode gathered p points even legible
  rw [complete] at stepped
  exact run_ok index rest _ _ _ [command] stepped

end Points

theorem run_tokens (reading : Reading) (c : Command Float) (idle : reading.gathered = [])
    (legible : c.Legible) :
    reading.run index (c.tokens ++ rest) =
      (c :: ·) <$> (⟨c.names, []⟩ : Reading).run (index + c.tokens.length) rest := by
  cases c with
  | move p mode =>
    have lead : Legible p.x := legible p.x (by simp [Command.leading])
    change reading.run index ([(Command.move p mode).initial] :: p.text.toList :: rest) = _
    rw [run_initial index rest .move mode reading _ _ idle rfl (point_of_legible p lead)]
    exact run_complete _ rest .move mode [] p rfl rfl lead _ rfl
  | line p mode =>
    have lead : Legible p.x := legible p.x (by simp [Command.leading])
    change reading.run index ([(Command.line p mode).initial] :: p.text.toList :: rest) = _
    rw [run_initial index rest .line mode reading _ _ idle rfl (point_of_legible p lead)]
    exact run_complete _ rest .line mode [] p rfl rfl lead _ rfl
  | curve p q r mode =>
    have first : Legible p.x := legible p.x (by simp [Command.leading])
    have second : Legible q.x := legible q.x (by simp [Command.leading])
    have third : Legible r.x := legible r.x (by simp [Command.leading])
    change reading.run index ([(Command.curve p q r mode).initial] :: p.text.toList ::
      q.text.toList :: r.text.toList :: rest) = _
    rw [run_initial index _ .curve mode reading _ _ idle rfl (point_of_legible p first),
      run_gather _ _ .curve mode [] p rfl rfl first rfl,
      run_gather _ _ .curve mode ([] ++ [p.x, p.y]) q rfl (by simp) second rfl]
    exact run_complete _ rest .curve mode _ r rfl (by simp) third _ rfl
  | horizontal x mode =>
    have lead : Legible x := legible x (by simp [Command.leading])
    have operand := (isCommand_text x).mpr lead
    change reading.run index ([(Command.horizontal x mode).initial] ::
      (Number.text x).toList :: rest) = _
    rw [run_initial index rest .horizontal mode reading _ _ idle rfl operand]
    exact run_ok _ rest _ _ _ _ (step_number (index + 1) rest .horizontal mode x rfl lead)
  | vertical y mode =>
    have lead : Legible y := legible y (by simp [Command.leading])
    have operand := (isCommand_text y).mpr lead
    change reading.run index ([(Command.vertical y mode).initial] ::
      (Number.text y).toList :: rest) = _
    rw [run_initial index rest .vertical mode reading _ _ idle rfl operand]
    exact run_ok _ rest _ _ _ _ (step_number (index + 1) rest .vertical mode y rfl lead)
  | close =>
    have stepped : reading.step index ['Z'] rest = .ok ([.close], ⟨.close, []⟩) := by
      rw [step, if_pos (by decide), Reading.command, if_neg (not_not_intro idle)]
      rfl
    exact run_ok index rest _ _ _ _ stepped

theorem run_illegible (reading : Reading) (c : Command Float) (idle : reading.gathered = [])
    (illegible : ¬ c.Legible) :
    ∃ fault place, reading.run index (c.tokens ++ rest) = .error fault ∧
      fault.index? = some place := by
  cases c with
  | move p mode =>
    have lead : ¬ Legible p.x := fun lead => illegible (by simpa [Command.Legible, Command.leading])
    exact ⟨_, _, run_withoutOperands index rest .move mode reading (.move p mode) _ idle rfl
      (point_of_illegible p lead), rfl⟩
  | line p mode =>
    have lead : ¬ Legible p.x := fun lead => illegible (by simpa [Command.Legible, Command.leading])
    exact ⟨_, _, run_withoutOperands index rest .line mode reading (.line p mode) _ idle rfl
      (point_of_illegible p lead), rfl⟩
  | curve p q r mode =>
    change ∃ fault place, reading.run index ([(Command.curve p q r mode).initial] ::
      p.text.toList :: q.text.toList :: r.text.toList :: rest) = .error fault ∧ _
    by_cases first : Legible p.x
    · rw [run_initial index _ .curve mode reading _ _ idle rfl (point_of_legible p first),
        run_gather _ _ .curve mode [] p rfl rfl first rfl]
      by_cases second : Legible q.x
      · have third : ¬ Legible r.x := fun third =>
          illegible (by simp [Command.Legible, Command.leading, first, second, third])
        rw [run_gather _ _ .curve mode ([] ++ [p.x, p.y]) q rfl (by simp) second rfl]
        exact ⟨_, _, run_error _ rest _ _ _ (step_missing _ rest .curve mode _ _
          (List.cons_ne_nil _ _) (point_of_illegible r third)), rfl⟩
      · exact ⟨_, _, run_error _ _ _ _ _ (step_missing _ _ .curve mode _ _
          (List.cons_ne_nil _ _) (point_of_illegible q second)), rfl⟩
    · exact ⟨_, _, run_withoutOperands index _ .curve mode reading (.curve p q r mode) _ idle rfl
        (point_of_illegible p first), rfl⟩
  | horizontal x mode =>
    have lead : ¬ Legible x := fun lead => illegible (by simpa [Command.Legible, Command.leading])
    exact ⟨_, _, run_withoutOperands index rest .horizontal mode reading (.horizontal x mode) _ idle
      rfl (isCommand_of_illegible x lead), rfl⟩
  | vertical y mode =>
    have lead : ¬ Legible y := fun lead => illegible (by simpa [Command.Legible, Command.leading])
    exact ⟨_, _, run_withoutOperands index rest .vertical mode reading (.vertical y mode) _ idle
      rfl (isCommand_of_illegible y lead), rfl⟩
  | close => exact absurd (by simp [Command.Legible, Command.leading]) illegible

theorem run_legible (reading : Reading) (path : Path) (idle : reading.gathered = [])
    (legible : ∀ c ∈ path, c.Legible) :
    reading.run index (path.flatMap Command.tokens) = .ok path := by
  induction path generalizing reading index with
  | nil => exact if_pos idle
  | cons c others later =>
    have head : c.Legible := legible c List.mem_cons_self
    rw [List.flatMap_cons, run_tokens index _ reading c idle head,
      later _ ⟨c.names, []⟩ rfl fun other member => legible other (List.mem_cons_of_mem c member)]
    rfl

theorem run_stops (reading : Reading) (path : Path) (idle : reading.gathered = [])
    (illegible : ¬ ∀ c ∈ path, c.Legible) :
    ∃ fault place, reading.run index (path.flatMap Command.tokens) = .error fault ∧
      fault.index? = some place := by
  induction path generalizing reading index with
  | nil => exact absurd (fun _ member => absurd member List.not_mem_nil) illegible
  | cons c others later =>
    rw [List.flatMap_cons]
    by_cases head : c.Legible
    · have rest : ¬ ∀ other ∈ others, other.Legible := fun all =>
        illegible (List.forall_mem_cons.mpr ⟨head, all⟩)
      obtain ⟨fault, place, stopped, counted⟩ :=
        later (index + c.tokens.length) ⟨c.names, []⟩ rfl rest
      refine ⟨fault, place, ?_, counted⟩
      rw [run_tokens index _ reading c idle head, stopped]
      rfl
    · exact run_illegible index _ reading c idle head

end Reading

theorem legible_of_isFinite (x : Float) (finite : x.isFinite = true) : Legible x := by
  constructor
  · rw [Float.isNaN_eq_decide_eq_nan, decide_eq_false_iff_not]
    rintro rfl
    exact absurd finite (by decide +kernel)
  · rintro rfl
    exact absurd finite (by decide +kernel)

theorem leading_subset (c : Command Float) : c.leading ⊆ c.operands := by
  cases c <;> simp [Command.leading, Command.operands]

theorem read_eq_run (path : Path) :
    read path.text = Reading.start.run 0 (path.flatMap Command.tokens) := by
  rw [read, words_text, ofTokens]

theorem read_text (path : Path) (legible : ∀ c ∈ path, c.Legible) : read path.text = .ok path :=
  (read_eq_run path).trans (Reading.run_legible 0 Reading.start path rfl legible)

/-- Equal numbers have equal bits here, and a fault with a place is one of the text and not of a
letter without meaning. -/
theorem text_read_back (path : Path) :
    ((∃ result, read path.text = .ok result) ↔ ∀ c ∈ path, c.Legible) ∧
      (∀ result, read path.text = .ok result → result = path) ∧
      ((¬ ∀ c ∈ path, c.Legible) →
        ∃ fault place, read path.text = .error fault ∧ fault.index? = some place) ∧
      ((∀ c ∈ path, ∀ x ∈ c.operands, x.isFinite = true) → read path.text = .ok path) := by
  have stopped (illegible : ¬ ∀ c ∈ path, c.Legible) :
      ∃ fault place, read path.text = .error fault ∧ fault.index? = some place := by
    rw [read_eq_run]
    exact Reading.run_stops 0 Reading.start path rfl illegible
  have legible_of_ok (result : Path) (found : read path.text = .ok result) :
      ∀ c ∈ path, c.Legible := by
    by_contra illegible
    obtain ⟨fault, -, failed, -⟩ := stopped illegible
    rw [failed] at found
    cases found
  refine ⟨⟨?_, ?_⟩, ?_, stopped, ?_⟩
  · rintro ⟨result, found⟩
    exact legible_of_ok result found
  · intro legible
    exact ⟨path, read_text path legible⟩
  · intro result found
    rw [read_text path (legible_of_ok result found)] at found
    exact (Except.ok.inj found).symm
  · intro finite
    exact read_text path fun c member x lead =>
      legible_of_isFinite x (finite c member x (leading_subset c lead))

end Path

end Cartograph
