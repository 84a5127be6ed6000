import Mathlib
import Cartograph.Path.Reader
import Cartograph.Proofs.Number.Spelling
import Cartograph.Proofs.Text.Words

/-! The grammar of paths. A text is read if its words are points, which belong to moves, and then
blocks of a letter and its operand groups; the reading is the one that the grammar gives. -/

namespace Cartograph.Path

namespace Grammar

def IsNumber (token : Token) (x : Float) : Prop :=
  isCommand token = false ∧ Number.read? token = some x

inductive OnePoint : List Token → Point Float → List Token → Prop
  | pair {token before after : List Char} {x y : Float} {rest : List Token}
      (operand : isCommand token = false) (cut : token = before ++ ',' :: after)
      (first : ',' ∉ before) (left : Number.read? before = some x)
      (right : Number.read? after = some y) : OnePoint (token :: rest) ⟨x, y⟩ rest
  | numbers {first second : Token} {x y : Float} {rest : List Token} (left : IsNumber first x)
      (right : IsNumber second y) : OnePoint (first :: second :: rest) ⟨x, y⟩ rest

inductive Group (mode : Mode) : Kind → List Token → Command Float → List Token → Prop
  | move {tokens rest : List Token} {p : Point Float} (point : OnePoint tokens p rest) :
      Group mode .move tokens (.move p mode) rest
  | line {tokens rest : List Token} {p : Point Float} (point : OnePoint tokens p rest) :
      Group mode .line tokens (.line p mode) rest
  | curve {tokens later last rest : List Token} {p q r : Point Float}
      (first : OnePoint tokens p later) (second : OnePoint later q last)
      (third : OnePoint last r rest) : Group mode .curve tokens (.curve p q r mode) rest
  | horizontal {token : Token} {rest : List Token} {x : Float} (number : IsNumber token x) :
      Group mode .horizontal (token :: rest) (.horizontal x mode) rest
  | vertical {token : Token} {rest : List Token} {y : Float} (number : IsNumber token y) :
      Group mode .vertical (token :: rest) (.vertical y mode) rest

inductive Groups (kind : Kind) (mode : Mode) : List Token → Path → List Token → Prop
  | none {rest : List Token} : Groups kind mode rest [] rest
  | more {tokens later rest : List Token} {command : Command Float} {commands : Path}
      (group : Group mode kind tokens command later)
      (others : Groups kind mode later commands rest) :
      Groups kind mode tokens (command :: commands) rest

end Grammar

namespace Kind

def upper : Kind → Char
  | move => 'M'
  | line => 'L'
  | curve => 'C'
  | horizontal => 'H'
  | vertical => 'V'

/-- Upper case is absolute, lower case relative. -/
def letter (kind : Kind) : Mode → Char
  | .absolute => kind.upper
  | .relative => kind.upper.toLower

end Kind

namespace Grammar

/-- A letter needs at least one group, but the closing one stands alone. -/
inductive Blocks : List Token → Path → Prop
  | done : Blocks [] []
  | close {c : Char} {rest : List Token} {path : Path} (closing : c = 'Z' ∨ c = 'z')
      (others : Blocks rest path) : Blocks ([c] :: rest) (.close :: path)
  | operands {kind : Kind} {mode : Mode} {tokens later rest : List Token} {command : Command Float}
      {commands path : Path} (first : Group mode kind tokens command later)
      (more : Groups kind mode later commands rest) (others : Blocks rest path) :
      Blocks ([kind.letter mode] :: tokens) (command :: commands ++ path)

/-- Points without a letter come first. -/
def Derives (tokens : List Token) (path : Path) : Prop :=
  ∃ moves rest blocks,
    Groups .move .absolute tokens moves rest ∧ Blocks rest blocks ∧ path = moves ++ blocks

end Grammar

theorem ofChar_letter_iff (c : Char) (kind : Kind) (mode : Mode) :
    Letter.ofChar? c = some (.operands kind mode) ↔ c = kind.letter mode := by
  constructor
  · intro named
    unfold Letter.ofChar? at named
    split at named <;> cases named <;> rfl
  · rintro rfl
    cases kind <;> cases mode <;> rfl

theorem ofChar_close_iff (c : Char) :
    Letter.ofChar? c = some .close ↔ c = 'Z' ∨ c = 'z' := by
  constructor
  · intro named
    unfold Letter.ofChar? at named
    split at named <;> cases named
    · exact .inl rfl
    · exact .inr rfl
  · rintro (rfl | rfl) <;> rfl

theorem isAlpha_of_letter (c : Char) (letter : Letter) (named : Letter.ofChar? c = some letter) :
    c.isAlpha = true := by
  unfold Letter.ofChar? at named
  split at named <;> first | rfl | cases named

namespace Reading

inductive Operand (startsPoint : Bool) : Token → List Float → Prop
  | pair {token before after : List Char} {x y : Float} (starts : startsPoint = true)
      (cut : Text.splitFirst? ',' token = some (before, after))
      (left : Number.read? before = some x) (right : Number.read? after = some y) :
      Operand startsPoint token [x, y]
  | number {token : Token} {x : Float}
      (whole : startsPoint = false ∨ Text.splitFirst? ',' token = none)
      (read : Number.read? token = some x) : Operand startsPoint token [x]

/-- A complete group becomes a command, and any other is kept. -/
def settle (kind : Kind) (mode : Mode) (gathered : List Float) : Path × Reading :=
  match kind.command? mode gathered with
  | some command => ([command], ⟨.operands kind mode, []⟩)
  | none => ([], ⟨.operands kind mode, gathered⟩)

inductive Takes : Reading → Token → List Token → Path × Reading → Prop
  | close {letter : Letter} {c : Char} {rest : List Token}
      (named : Letter.ofChar? c = some .close) :
      Takes ⟨letter, []⟩ [c] rest ([.close], ⟨.close, []⟩)
  | letter {letter : Letter} {c : Char} {kind : Kind} {mode : Mode} {rest : List Token}
      (named : Letter.ofChar? c = some (.operands kind mode))
      (next : rest.head?.all isCommand = false) :
      Takes ⟨letter, []⟩ [c] rest ([], ⟨.operands kind mode, []⟩)
  | operand {kind : Kind} {mode : Mode} {gathered more : List Float} {token : Token}
      {rest : List Token} (operand : isCommand token = false)
      (numbers : Operand (kind.takesPoints && gathered.length % 2 == 0) token more) :
      Takes ⟨.operands kind mode, gathered⟩ token rest (settle kind mode (gathered ++ more))

inductive Reads : Reading → List Token → Path → Prop
  | done {letter : Letter} : Reads ⟨letter, []⟩ [] []
  | step {reading : Reading} {token : Token} {rest : List Token} {result : Path × Reading}
      {path : Path} (taken : Takes reading token rest result) (others : Reads result.2 rest path) :
      Reads reading (token :: rest) (result.1 ++ path)

theorem bind_eq_ok_iff {α β : Type} (first : Except Fault α) (next : α → Except Fault β)
    (result : β) :
    first >>= next = .ok result ↔ ∃ value, first = .ok value ∧ next value = .ok result := by
  cases first with
  | error fault => simp [bind, Except.bind]
  | ok value => simp [bind, Except.bind]

theorem number_eq_ok_iff (index : Nat) (text : List Char) (x : Float) :
    number index text = .ok x ↔ Number.read? text = some x := by
  unfold number
  split <;> simp [*]

theorem numbers_eq_ok_iff (index : Nat) (startsPoint : Bool) (token : Token) (more : List Float) :
    numbers index startsPoint token = .ok more ↔ Operand startsPoint token more := by
  unfold numbers
  split
  · next before after cut =>
    have starts : startsPoint = true := by
      by_contra other
      rw [if_neg other] at cut
      cases cut
    rw [if_pos starts] at cut
    simp only [bind_eq_ok_iff, number_eq_ok_iff]
    constructor
    · rintro ⟨x, left, y, right, same⟩
      cases same
      exact .pair starts cut left right
    · intro operand
      cases operand with
      | pair _ cut' left right =>
        cases cut.symm.trans cut'
        exact ⟨_, left, _, right, rfl⟩
      | number whole read =>
        rw [starts, cut] at whole
        simp at whole
  · next cut =>
    have whole : startsPoint = false ∨ Text.splitFirst? ',' token = none := by
      cases startsPoint with
      | false => exact .inl rfl
      | true => exact .inr cut
    simp only [bind_eq_ok_iff, number_eq_ok_iff]
    constructor
    · rintro ⟨x, read, same⟩
      cases same
      exact .number whole read
    · intro operand
      cases operand with
      | pair starts cut' left right =>
        rw [if_pos starts, cut'] at cut
        cases cut
      | number _ read => exact ⟨_, read, rfl⟩

theorem operand_eq_ok_iff (reading : Reading) (index : Nat) (token : Token)
    (result : Path × Reading) :
    reading.operand index token = .ok result ↔
      ∃ kind mode more, reading.letter = .operands kind mode ∧
        Operand (kind.takesPoints && reading.gathered.length % 2 == 0) token more ∧
        result = settle kind mode (reading.gathered ++ more) := by
  obtain ⟨letter, gathered⟩ := reading
  cases letter with
  | close => simp [Reading.operand]
  | operands kind mode =>
    simp only [Reading.operand, bind_eq_ok_iff, numbers_eq_ok_iff]
    constructor
    · rintro ⟨more, numbers, same⟩
      refine ⟨kind, mode, more, rfl, numbers, ?_⟩
      unfold settle
      cases settled : kind.command? mode (gathered ++ more) <;> rw [settled] at same <;>
        exact (Except.ok.inj same).symm
    · rintro ⟨_, _, more, same, numbers, rfl⟩
      cases same
      refine ⟨more, numbers, ?_⟩
      unfold settle
      cases kind.command? mode (gathered ++ more) <;> rfl

theorem letter_eq_ok_iff (index : Nat) (token : Token) (c : Char) (letter : Letter) :
    Path.letter index token = .ok (c, letter) ↔ token = [c] ∧ Letter.ofChar? c = some letter := by
  constructor
  · intro found
    unfold Path.letter at found
    split at found
    · next first =>
      split at found
      · next named =>
        cases found
        exact ⟨rfl, named⟩
      · cases found
    · cases found
  · rintro ⟨rfl, named⟩
    rw [Path.letter, named]

theorem command_eq_ok_iff (reading : Reading) (index : Nat) (token : Token) (rest : List Token)
    (result : Path × Reading) (command : isCommand token = true) :
    reading.command index token rest = .ok result ↔ Takes reading token rest result := by
  obtain ⟨letter, gathered⟩ := reading
  by_cases idle : gathered = []
  · subst idle
    simp only [Reading.command, ne_eq, not_true_eq_false, ↓reduceIte, bind_eq_ok_iff, Prod.exists,
      letter_eq_ok_iff]
    constructor
    · rintro ⟨c, named, ⟨rfl, found⟩, same⟩
      cases named with
      | close =>
        cases same
        exact .close found
      | operands kind mode =>
        cases next : rest.head?.all isCommand with
        | true =>
          simp [next] at same
        | false =>
          simp [next] at same
          cases same
          exact .letter found next
    · intro takes
      cases takes with
      | close named => exact ⟨_, _, ⟨rfl, named⟩, rfl⟩
      | letter named next => exact ⟨_, _, ⟨rfl, named⟩, by simp [next]; rfl⟩
      | operand operand numbers =>
        rw [command] at operand
        cases operand
  · simp only [Reading.command, if_pos idle]
    constructor
    · intro failed
      cases failed
    · intro takes
      cases takes with
      | close named => exact absurd rfl idle
      | letter named next => exact absurd rfl idle
      | operand operand numbers =>
        rw [command] at operand
        cases operand

theorem step_eq_ok_iff (reading : Reading) (index : Nat) (token : Token) (rest : List Token)
    (result : Path × Reading) :
    reading.step index token rest = .ok result ↔ Takes reading token rest result := by
  cases command : isCommand token with
  | true => rw [step, if_pos command, command_eq_ok_iff reading index token rest result command]
  | false =>
    have other : ¬ isCommand token = true := by simp [command]
    rw [step, if_neg other, operand_eq_ok_iff]
    obtain ⟨letter, gathered⟩ := reading
    constructor
    · rintro ⟨kind, mode, more, rfl, numbers, rfl⟩
      exact .operand command numbers
    · intro takes
      cases takes with
      | close named =>
        rw [isCommand, isAlpha_of_letter _ _ named] at command
        cases command
      | letter named next =>
        rw [isCommand, isAlpha_of_letter _ _ named] at command
        cases command
      | operand operand numbers => exact ⟨_, _, _, rfl, numbers, rfl⟩

/-- Where the reader stands in the text matters to faults alone. -/
theorem run_eq_ok_iff (reading : Reading) (index : Nat) (tokens : List Token) (path : Path) :
    reading.run index tokens = .ok path ↔ Reads reading tokens path := by
  induction tokens generalizing reading index path with
  | nil =>
    obtain ⟨letter, gathered⟩ := reading
    unfold run
    split
    · next idle =>
      cases idle
      constructor
      · intro same
        cases same
        exact .done
      · intro reads
        cases reads
        rfl
    · next busy =>
      constructor
      · intro failed
        cases failed
      · intro reads
        cases reads
        exact absurd rfl busy
  | cons token rest ih =>
    simp only [run, bind_eq_ok_iff, Prod.exists, step_eq_ok_iff, ih]
    constructor
    · rintro ⟨commands, next, taken, others, reads, same⟩
      cases same
      exact .step taken reads
    · intro reads
      cases reads with
      | step taken others => exact ⟨_, _, taken, _, others, rfl⟩

end Reading

namespace Grammar

open Reading

def Goes (kind : Kind) (mode : Mode) (gathered : List Float) (rest : List Token) (path : Path) :
    Prop :=
  ∃ others, Reads (settle kind mode gathered).2 rest others ∧
    path = (settle kind mode gathered).1 ++ others

section Groups

variable {kind : Kind} {mode : Mode} {gathered : List Float} {rest : List Token} {path : Path}

theorem goes_incomplete (incomplete : kind.command? mode gathered = none) :
    Goes kind mode gathered rest path ↔ Reads ⟨.operands kind mode, gathered⟩ rest path := by
  simp [Goes, settle, incomplete]

theorem goes_complete {command : Command Float}
    (complete : kind.command? mode gathered = some command) :
    Goes kind mode gathered rest path ↔
      ∃ others, Reads ⟨.operands kind mode, []⟩ rest others ∧ path = command :: others := by
  simp [Goes, settle, complete]

theorem reads_operand_iff {token : Token} (operand : isCommand token = false) :
    Reads ⟨.operands kind mode, gathered⟩ (token :: rest) path ↔
      ∃ more, Operand (kind.takesPoints && gathered.length % 2 == 0) token more ∧
        Goes kind mode (gathered ++ more) rest path := by
  constructor
  · intro reads
    cases reads with
    | step taken others =>
      cases taken with
      | close named =>
        rw [isCommand, isAlpha_of_letter _ _ named] at operand
        cases operand
      | letter named next =>
        rw [isCommand, isAlpha_of_letter _ _ named] at operand
        cases operand
      | operand operand numbers => exact ⟨_, numbers, _, others, rfl⟩
  · rintro ⟨more, numbers, others, reads, rfl⟩
    exact .step (.operand operand numbers) reads

theorem operand_of_gathered {tokens : List Token} (busy : gathered ≠ [])
    (reads : Reads ⟨.operands kind mode, gathered⟩ tokens path) :
    ∃ token rest, tokens = token :: rest ∧ isCommand token = false := by
  cases reads with
  | done => exact absurd rfl busy
  | step taken others =>
    cases taken with
    | close named => exact absurd rfl busy
    | letter named next => exact absurd rfl busy
    | operand operand numbers => exact ⟨_, _, rfl, operand⟩

theorem incomplete_of_odd (points : kind.takesPoints = true) (odd : gathered.length % 2 = 1) :
    kind.command? mode gathered = none := by
  cases found : kind.command? mode gathered with
  | none => rfl
  | some command =>
    unfold Kind.command? at found
    split at found <;> simp_all [Kind.takesPoints]

section Points

variable (points : kind.takesPoints = true) (even : gathered.length % 2 = 0)

include points even

/-- Half a point leaves the group incomplete, and its other half is a number by itself. -/
theorem goes_half (x : Float) :
    Goes kind mode (gathered ++ [x]) rest path ↔
      ∃ token later y, rest = token :: later ∧ IsNumber token y ∧
        Goes kind mode (gathered ++ [x, y]) later path := by
  have odd : (gathered ++ [x]).length % 2 = 1 := by
    rw [List.length_append, List.length_singleton]
    omega
  have single : (kind.takesPoints && (gathered ++ [x]).length % 2 == 0) = false := by
    rw [odd]
    exact Bool.and_false _
  rw [goes_incomplete (incomplete_of_odd points odd)]
  constructor
  · intro reads
    obtain ⟨token, later, rfl, operand⟩ := operand_of_gathered (by simp) reads
    obtain ⟨more, numbers, goes⟩ := (reads_operand_iff operand).mp reads
    rw [single] at numbers
    cases numbers with
    | pair starts cut left right => cases starts
    | number whole read =>
      rw [List.append_assoc] at goes
      exact ⟨token, later, _, rfl, ⟨operand, read⟩, goes⟩
  · rintro ⟨token, later, y, rfl, number, goes⟩
    refine (reads_operand_iff number.1).mpr ⟨[y], ?_, ?_⟩
    · rw [single]
      exact .number (.inl rfl) number.2
    · rwa [List.append_assoc]

theorem reads_point_iff {token : Token} (operand : isCommand token = false) :
    Reads ⟨.operands kind mode, gathered⟩ (token :: rest) path ↔
      ∃ p later, OnePoint (token :: rest) p later ∧
        Goes kind mode (gathered ++ [p.x, p.y]) later path := by
  have starts : (kind.takesPoints && gathered.length % 2 == 0) = true := by simp [points, even]
  rw [reads_operand_iff operand, starts]
  constructor
  · rintro ⟨more, numbers, goes⟩
    cases numbers with
    | @pair before after x y _ cut left right =>
      obtain ⟨shape, first⟩ := (Text.splitFirst_eq_some_iff ',' token before after).mp cut
      exact ⟨⟨x, y⟩, rest, .pair operand shape first left right, goes⟩
    | @number x whole read =>
      obtain ⟨second, later, y, rfl, number, goes⟩ := (goes_half points even x).mp goes
      exact ⟨⟨x, y⟩, later, .numbers ⟨operand, read⟩ number, goes⟩
  · rintro ⟨p, later, point, goes⟩
    cases point with
    | @pair _ before after x y _ _ shape first left right =>
      have cut := (Text.splitFirst_eq_some_iff ',' token before after).mpr ⟨shape, first⟩
      exact ⟨[x, y], .pair rfl cut left right, goes⟩
    | @numbers _ second x y _ left right =>
      have whole := (Text.splitFirst_eq_none_iff ',' token).mpr
        (Number.comma_not_mem_of_read token x left.2)
      exact ⟨[x], .number (.inr whole) left.2,
        (goes_half points even x).mpr ⟨second, later, y, rfl, right, goes⟩⟩

end Points

theorem operand_of_point {tokens : List Token} {p : Point Float} (point : OnePoint tokens p rest) :
    ∃ token later, tokens = token :: later ∧ isCommand token = false := by
  cases point with
  | pair operand shape first left right => exact ⟨_, _, rfl, operand⟩
  | numbers left right => exact ⟨_, _, rfl, left.1⟩

theorem operand_of_group {tokens : List Token} {command : Command Float}
    (group : Group mode kind tokens command rest) :
    ∃ token later, tokens = token :: later ∧ isCommand token = false := by
  cases group with
  | move point => exact operand_of_point point
  | line point => exact operand_of_point point
  | curve first second third => exact operand_of_point first
  | horizontal number => exact ⟨_, _, rfl, number.1⟩
  | vertical number => exact ⟨_, _, rfl, number.1⟩

theorem length_lt_of_point {tokens : List Token} {p : Point Float}
    (point : OnePoint tokens p rest) : rest.length < tokens.length := by
  cases point <;> simp

theorem length_lt_of_group {tokens : List Token} {command : Command Float}
    (group : Group mode kind tokens command rest) : rest.length < tokens.length := by
  cases group with
  | move point => exact length_lt_of_point point
  | line point => exact length_lt_of_point point
  | curve first second third =>
    have := length_lt_of_point first
    have := length_lt_of_point second
    have := length_lt_of_point third
    omega
  | horizontal number => simp
  | vertical number => simp

theorem reads_single_point_iff {token : Token} (make : Point Float → Command Float)
    (points : kind.takesPoints = true)
    (complete : ∀ p : Point Float, kind.command? mode [p.x, p.y] = some (make p))
    (operand : isCommand token = false) :
    Reads ⟨.operands kind mode, []⟩ (token :: rest) path ↔
      ∃ p later others, OnePoint (token :: rest) p later ∧
        Reads ⟨.operands kind mode, []⟩ later others ∧ path = make p :: others := by
  rw [reads_point_iff points rfl operand]
  simp only [List.nil_append, goes_complete (complete _), exists_and_left]

theorem reads_single_number_iff {token : Token} (make : Float → Command Float)
    (single : kind.takesPoints = false)
    (complete : ∀ x : Float, kind.command? mode [x] = some (make x))
    (operand : isCommand token = false) :
    Reads ⟨.operands kind mode, []⟩ (token :: rest) path ↔
      ∃ x others, IsNumber token x ∧
        Reads ⟨.operands kind mode, []⟩ rest others ∧ path = make x :: others := by
  rw [reads_operand_iff operand, single]
  constructor
  · rintro ⟨more, numbers, goes⟩
    cases numbers with
    | pair starts cut left right => cases starts
    | @number x whole read =>
      obtain ⟨others, reads, rfl⟩ := (goes_complete (complete x)).mp goes
      exact ⟨x, others, ⟨operand, read⟩, reads, rfl⟩
  · rintro ⟨x, others, number, reads, rfl⟩
    exact ⟨[x], .number (.inl rfl) number.2, (goes_complete (complete x)).mpr ⟨others, reads, rfl⟩⟩

theorem goes_point_iff (points : kind.takesPoints = true) (even : gathered.length % 2 = 0)
    (incomplete : kind.command? mode gathered = none) (busy : gathered ≠ []) :
    Goes kind mode gathered rest path ↔
      ∃ p later, OnePoint rest p later ∧ Goes kind mode (gathered ++ [p.x, p.y]) later path := by
  rw [goes_incomplete incomplete]
  constructor
  · intro reads
    obtain ⟨token, tail, rfl, operand⟩ := operand_of_gathered busy reads
    exact (reads_point_iff points even operand).mp reads
  · rintro ⟨p, later, point, goes⟩
    obtain ⟨token, tail, rfl, operand⟩ := operand_of_point point
    exact (reads_point_iff points even operand).mpr ⟨p, later, point, goes⟩

theorem reads_group_iff {token : Token} (operand : isCommand token = false) :
    Reads ⟨.operands kind mode, []⟩ (token :: rest) path ↔
      ∃ command later others, Group mode kind (token :: rest) command later ∧
        Reads ⟨.operands kind mode, []⟩ later others ∧ path = command :: others := by
  cases kind with
  | move =>
    rw [reads_single_point_iff (.move · mode) rfl (fun _ => rfl) operand]
    constructor
    · rintro ⟨p, later, others, point, reads, same⟩
      exact ⟨_, later, others, .move point, reads, same⟩
    · rintro ⟨_, later, others, group, reads, same⟩
      cases group with
      | move point => exact ⟨_, later, others, point, reads, same⟩
  | line =>
    rw [reads_single_point_iff (.line · mode) rfl (fun _ => rfl) operand]
    constructor
    · rintro ⟨p, later, others, point, reads, same⟩
      exact ⟨_, later, others, .line point, reads, same⟩
    · rintro ⟨_, later, others, group, reads, same⟩
      cases group with
      | line point => exact ⟨_, later, others, point, reads, same⟩
  | curve =>
    rw [reads_point_iff rfl rfl operand]
    constructor
    · rintro ⟨p, later, first, goes⟩
      obtain ⟨q, last, second, goes⟩ := (goes_point_iff rfl (by simp) rfl (by simp)).mp goes
      obtain ⟨r, final, third, goes⟩ := (goes_point_iff rfl (by simp) rfl (by simp)).mp goes
      obtain ⟨others, reads, same⟩ := (goes_complete rfl).mp goes
      exact ⟨_, final, others, .curve first second third, reads, same⟩
    · rintro ⟨_, final, others, group, reads, same⟩
      cases group with
      | curve first second third =>
        refine ⟨_, _, first, (goes_point_iff rfl (by simp) rfl (by simp)).mpr ⟨_, _, second, ?_⟩⟩
        refine (goes_point_iff rfl (by simp) rfl (by simp)).mpr ⟨_, _, third, ?_⟩
        exact (goes_complete rfl).mpr ⟨others, reads, same⟩
  | horizontal =>
    rw [reads_single_number_iff (.horizontal · mode) rfl (fun _ => rfl) operand]
    constructor
    · rintro ⟨x, others, number, reads, same⟩
      exact ⟨_, rest, others, .horizontal number, reads, same⟩
    · rintro ⟨_, _, others, group, reads, same⟩
      cases group with
      | horizontal number => exact ⟨_, others, number, reads, same⟩
  | vertical =>
    rw [reads_single_number_iff (.vertical · mode) rfl (fun _ => rfl) operand]
    constructor
    · rintro ⟨x, others, number, reads, same⟩
      exact ⟨_, rest, others, .vertical number, reads, same⟩
    · rintro ⟨_, _, others, group, reads, same⟩
      cases group with
      | vertical number => exact ⟨_, others, number, reads, same⟩

end Groups

def Continues : Letter → List Token → Path → Prop
  | .close, tokens, path => Blocks tokens path
  | .operands kind mode, tokens, path =>
    ∃ commands rest blocks,
      Groups kind mode tokens commands rest ∧ Blocks rest blocks ∧ path = commands ++ blocks

theorem continues_of_blocks (letter : Letter) (tokens : List Token) (path : Path)
    (blocks : Blocks tokens path) : Continues letter tokens path := by
  cases letter with
  | close => exact blocks
  | operands kind mode => exact ⟨[], tokens, path, .none, blocks, rfl⟩

theorem command_of_blocks (token : Token) (rest : List Token) (path : Path)
    (blocks : Blocks (token :: rest) path) : isCommand token = true := by
  cases blocks with
  | close closing others => exact isAlpha_of_letter _ _ ((ofChar_close_iff _).mpr closing)
  | operands first more others => exact isAlpha_of_letter _ _ ((ofChar_letter_iff _ _ _).mpr rfl)

theorem continues_of_reads (letter : Letter) (tokens : List Token) (path : Path)
    (reads : Reads ⟨letter, []⟩ tokens path) : Continues letter tokens path := by
  -- On the number of tokens, because a group takes several of them at once.
  induction size : tokens.length using Nat.strong_induction_on generalizing letter tokens path with
  | _ n ih =>
    cases reads with
    | done => exact continues_of_blocks letter [] [] .done
    | @step _ token rest result others taken further =>
      have shorter : rest.length < n := by
        rw [← size]
        exact Nat.lt_succ_self _
      cases taken with
      | close named =>
        have blocks : Blocks rest others := ih rest.length shorter .close rest others further rfl
        exact continues_of_blocks letter _ _ (.close ((ofChar_close_iff _).mp named) blocks)
      | @letter _ c kind mode _ named next =>
        obtain rfl := (ofChar_letter_iff c kind mode).mp named
        obtain ⟨commands, left, blocks, groups, derived, rfl⟩ :=
          ih rest.length shorter (.operands kind mode) rest others further rfl
        apply continues_of_blocks
        cases groups with
        | none =>
          -- A letter without operands stands at the end or before another letter.
          cases rest with
          | nil => cases next
          | cons token later =>
            rw [List.head?_cons, Option.all_some, command_of_blocks token later _ derived] at next
            cases next
        | more first more => exact .operands first more derived
      | @operand kind mode _ more _ _ operand numbers =>
        have again : Reads ⟨.operands kind mode, []⟩ (token :: rest) _ :=
          .step (.operand operand numbers) further
        obtain ⟨c, later, others, group, further, same⟩ := (reads_group_iff operand).mp again
        have left_shorter : later.length < n := size ▸ length_lt_of_group group
        obtain ⟨commands, left, blocks, groups, derived, rfl⟩ :=
          ih later.length left_shorter (.operands kind mode) later others further rfl
        exact ⟨c :: commands, left, blocks, .more group groups, derived, same⟩

theorem reads_of_groups {kind : Kind} {mode : Mode} {tokens rest : List Token}
    {commands path : Path} (groups : Groups kind mode tokens commands rest)
    (further : Reads ⟨.operands kind mode, []⟩ rest path) :
    Reads ⟨.operands kind mode, []⟩ tokens (commands ++ path) := by
  induction groups with
  | none => exact further
  | more group others ih =>
    obtain ⟨token, later, rfl, operand⟩ := operand_of_group group
    exact (reads_group_iff operand).mpr ⟨_, _, _, group, ih further, rfl⟩

theorem reads_of_blocks {tokens : List Token} {path : Path} (blocks : Blocks tokens path)
    (letter : Letter) : Reads ⟨letter, []⟩ tokens path := by
  induction blocks generalizing letter with
  | done => exact .done
  | close closing others ih => exact .step (.close ((ofChar_close_iff _).mpr closing)) (ih .close)
  | operands first more others ih =>
    have further := reads_of_groups (.more first more) (ih _)
    obtain ⟨token, later, rfl, operand⟩ := operand_of_group first
    refine .step (.letter ((ofChar_letter_iff _ _ _).mpr rfl) ?_) further
    rw [List.head?_cons, Option.all_some, operand]

theorem reads_iff_derives (tokens : List Token) (path : Path) :
    Reads Reading.start tokens path ↔ Derives tokens path := by
  constructor
  · exact continues_of_reads _ tokens path
  · rintro ⟨moves, rest, blocks, groups, derived, rfl⟩
    exact reads_of_groups groups (reads_of_blocks derived _)

/-- The grammar is not ambiguous, since the reader gives one path at most. -/
theorem read_eq_ok_iff_derives (text : String) :
    (∀ path, read text = .ok path ↔ Derives (Text.words text.toList) path) ∧
      ∀ first second, Derives (Text.words text.toList) first →
        Derives (Text.words text.toList) second → first = second := by
  have reading (path : Path) : read text = .ok path ↔ Derives (Text.words text.toList) path :=
    (run_eq_ok_iff _ _ _ _).trans (reads_iff_derives _ _)
  refine ⟨reading, fun first second one other => ?_⟩
  have same := ((reading first).mpr one).symm.trans ((reading second).mpr other)
  exact Except.ok.inj same

theorem mixed_points_derived :
    Derives (Text.words "1,2 3 -4 c 0,1 -inf 2 5 6 Z".toList)
        [.move ⟨1, 2⟩ .absolute, .move ⟨3, -4⟩ .absolute,
          .curve ⟨0, 1⟩ ⟨-1 / 0, 2⟩ ⟨5, 6⟩ .relative, .close] ∧
      ∀ other, Derives (Text.words "1,2 3 -4 c 0,1 -inf 2 5 6 Z".toList) other →
        other = [.move ⟨1, 2⟩ .absolute, .move ⟨3, -4⟩ .absolute,
          .curve ⟨0, 1⟩ ⟨-1 / 0, 2⟩ ⟨5, 6⟩ .relative, .close] := by
  have found : read "1,2 3 -4 c 0,1 -inf 2 5 6 Z" =
      .ok [.move ⟨1, 2⟩ .absolute, .move ⟨3, -4⟩ .absolute,
        .curve ⟨0, 1⟩ ⟨-1 / 0, 2⟩ ⟨5, 6⟩ .relative, .close] := rfl
  obtain ⟨reading, unique⟩ := read_eq_ok_iff_derives "1,2 3 -4 c 0,1 -inf 2 5 6 Z"
  have derived := (reading _).mp found
  exact ⟨derived, fun other also => unique other _ also derived⟩

end Grammar

end Cartograph.Path
