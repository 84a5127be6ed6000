/-! Why a text is not a path. Places are counted in tokens. -/

namespace Cartograph.Path

inductive Fault where
  | notOneLetter (index : Nat) (token : List Char)
  | unsupported (letter : Char)
  | withoutOperands (index : Nat) (letter : Char)
  | operandAfterClose (index : Nat) (token : List Char)
  | missingBefore (index : Nat) (token : List Char)
  | missingAtEnd (index : Nat)
  | invalidNumber (index : Nat) (text : List Char)
  deriving DecidableEq, Repr

namespace Fault

/-- The token at fault; a letter that is no command is named instead of counted. -/
def index? : Fault → Option Nat
  | notOneLetter index _ => some index
  | unsupported _ => none
  | withoutOperands index _ => some index
  | operandAfterClose index _ => some index
  | missingBefore index _ => some index
  | missingAtEnd index => some index
  | invalidNumber index _ => some index

def quoted (text : List Char) : String := "`" ++ String.ofList text ++ "`"

def detail : Fault → String
  | notOneLetter _ token => "expected a single command letter, got " ++ quoted token
  | unsupported letter => "unsupported path command " ++ quoted [letter]
  | withoutOperands _ letter => "command " ++ quoted [letter] ++ " without operands"
  | operandAfterClose _ token => "unexpected operand " ++ quoted token ++ " after `Z`"
  | missingBefore _ token => "missing operand before " ++ quoted token
  | missingAtEnd _ => "missing operand at end of path"
  | invalidNumber _ text => "invalid number " ++ quoted text

def message (fault : Fault) : String :=
  match fault.index? with
  | some index => "path parse error at token " ++ toString index ++ ": " ++ fault.detail
  | none => fault.detail

end Fault

end Cartograph.Path
