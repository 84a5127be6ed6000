import Cartograph.Number.Notation
import Cartograph.Path.Command

/-! The written form of paths: a letter and its operands for every command. -/

namespace Cartograph

namespace Point

def text (p : Point Float) : String := Number.text p.x ++ "," ++ Number.text p.y

end Point

namespace Command

def letter (upper lower : String) : Mode → String
  | .absolute => upper
  | .relative => lower

def text : Command Float → String
  | move p mode => letter "M" "m" mode ++ " " ++ p.text
  | line p mode => letter "L" "l" mode ++ " " ++ p.text
  | curve p q r mode => letter "C" "c" mode ++ " " ++ p.text ++ " " ++ q.text ++ " " ++ r.text
  | horizontal x mode => letter "H" "h" mode ++ " " ++ Number.text x
  | vertical y mode => letter "V" "v" mode ++ " " ++ Number.text y
  | close => "Z"

end Command

namespace Path

def text (path : Path) : String := " ".intercalate (path.map Command.text)

end Path

end Cartograph
