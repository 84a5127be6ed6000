/-! Documents: trees of numbers, texts, lists and records, as a JSON text spells them. -/

namespace Cartograph

inductive Document where
  | null
  | bool (value : Bool)
  /-- A number as it is written, so that nothing is rounded before it is used. -/
  | number (literal : String)
  /-- Absent content holds half of a surrogate pair: well formed, but not readable. -/
  | text (content : Option String)
  | list (items : List Document)
  | record (members : List (Option String × Document))
  | broken
  deriving Inhabited

namespace Document

mutual

/-- The text of this part is well formed, which is all that is asked of a skipped value. -/
def intact : Document → Bool
  | broken => false
  | list items => intactItems items
  | record members => intactMembers members
  | null | bool _ | number _ | text _ => true

def intactItems : List Document → Bool
  | [] => true
  | item :: rest => intact item && intactItems rest

def intactMembers : List (Option String × Document) → Bool
  | [] => true
  | (_, value) :: rest => intact value && intactMembers rest

end

end Document

end Cartograph
