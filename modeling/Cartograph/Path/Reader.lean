import Cartograph.Number.Numeral
import Cartograph.Path.Command
import Cartograph.Path.Fault
import Cartograph.Text.Pieces

/-! Reading paths. A token that starts with a letter is a command, any other an operand. The
operands of one command repeat it in groups; a point is one token `x,y` or two number tokens.
Operands before any letter belong to an absolute move. -/

namespace Cartograph.Path

abbrev Token := List Char

inductive Kind where
  | move
  | line
  | curve
  | horizontal
  | vertical
  deriving DecidableEq, Repr

namespace Kind

def takesPoints : Kind → Bool
  | move | line | curve => true
  | horizontal | vertical => false

def command? {α : Type} (mode : Mode) : Kind → List α → Option (Command α)
  | move, [x, y] => some (.move ⟨x, y⟩ mode)
  | line, [x, y] => some (.line ⟨x, y⟩ mode)
  | curve, [a, b, c, d, x, y] => some (.curve ⟨a, b⟩ ⟨c, d⟩ ⟨x, y⟩ mode)
  | horizontal, [x] => some (.horizontal x mode)
  | vertical, [y] => some (.vertical y mode)
  | _, _ => none

end Kind

def isCommand : Token → Bool
  | [] => false
  | c :: _ => c.isAlpha

inductive Letter where
  | close
  | operands (kind : Kind) (mode : Mode)
  deriving DecidableEq, Repr

namespace Letter

def ofChar? : Char → Option Letter
  | 'M' => some (operands .move .absolute)
  | 'm' => some (operands .move .relative)
  | 'L' => some (operands .line .absolute)
  | 'l' => some (operands .line .relative)
  | 'C' => some (operands .curve .absolute)
  | 'c' => some (operands .curve .relative)
  | 'H' => some (operands .horizontal .absolute)
  | 'h' => some (operands .horizontal .relative)
  | 'V' => some (operands .vertical .absolute)
  | 'v' => some (operands .vertical .relative)
  | 'Z' => some close
  | 'z' => some close
  | _ => none

end Letter

def letter (index : Nat) : Token → Except Fault (Char × Letter)
  | [c] => match Letter.ofChar? c with
    | some letter => .ok (c, letter)
    | none => .error (.unsupported c)
  | token => .error (.notOneLetter index token)

def number (index : Nat) (text : List Char) : Except Fault Float :=
  match Number.read? text with
  | some x => .ok x
  | none => .error (.invalidNumber index text)

/-- The numbers of one operand token; only the start of a point may hold both coordinates. -/
def numbers (index : Nat) (startsPoint : Bool) (token : Token) : Except Fault (List Float) :=
  match if startsPoint then Text.splitFirst? ',' token else none with
  | some (x, y) => do
    let x ← number index x
    let y ← number index y
    return [x, y]
  | none => do
    let x ← number index token
    return [x]

/-- What the reader remembers between two tokens: the last letter and the numbers of the
group that is not complete yet. -/
structure Reading where
  letter : Letter
  gathered : List Float

namespace Reading

def start : Reading := ⟨.operands .move .absolute, []⟩

def operand (reading : Reading) (index : Nat) (token : Token) :
    Except Fault (List (Command Float) × Reading) :=
  match reading.letter with
  | .close => .error (.operandAfterClose index token)
  | .operands kind mode => do
    let startsPoint := kind.takesPoints && reading.gathered.length % 2 == 0
    let more ← numbers index startsPoint token
    let gathered := reading.gathered ++ more
    match kind.command? mode gathered with
    | some command => return ([command], { reading with gathered := [] })
    | none => return ([], { reading with gathered })

/-- A letter ends no group, and all but the closing one need an operand next. -/
def command (reading : Reading) (index : Nat) (token : Token) (rest : List Token) :
    Except Fault (List (Command Float) × Reading) :=
  if reading.gathered ≠ [] then .error (.missingBefore index token)
  else do
    let (c, letter) ← Path.letter index token
    match letter with
    | .close => return ([.close], ⟨.close, []⟩)
    | .operands _ _ =>
      if rest.head?.all isCommand then .error (.withoutOperands index c)
      else return ([], ⟨letter, []⟩)

def step (reading : Reading) (index : Nat) (token : Token) (rest : List Token) :
    Except Fault (List (Command Float) × Reading) :=
  if isCommand token then reading.command index token rest
  else reading.operand index token

def run (reading : Reading) (index : Nat) : List Token → Except Fault Path
  | [] => if reading.gathered = [] then .ok [] else .error (.missingAtEnd index)
  | token :: rest => do
    let (commands, next) ← reading.step index token rest
    let others ← next.run (index + 1) rest
    return commands ++ others

end Reading

def ofTokens (tokens : List Token) : Except Fault Path := Reading.start.run 0 tokens

def read (text : String) : Except Fault Path := ofTokens (Text.words text.toList)

end Cartograph.Path
