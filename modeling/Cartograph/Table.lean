/-! Tables from names to values, kept in the order of their names with each name once. -/

namespace Cartograph

structure Table (α : Type) where
  entries : List (String × α)
  deriving BEq, Repr, Inhabited

abbrev Tags := Table String

namespace Table

variable {α : Type}

def empty : Table α := ⟨[]⟩

def insertInto (name : String) (value : α) : List (String × α) → List (String × α)
  | [] => [(name, value)]
  | (key, old) :: rest =>
    if name < key then (name, value) :: (key, old) :: rest
    else if key < name then (key, old) :: insertInto name value rest
    else (name, value) :: rest

/-- Of two values for one name the later stays. -/
def insert (table : Table α) (name : String) (value : α) : Table α :=
  ⟨insertInto name value table.entries⟩

def ofList (entries : List (String × α)) : Table α :=
  entries.foldl (fun table (name, value) => table.insert name value) empty

def get? (table : Table α) (name : String) : Option α := table.entries.lookup name

def names (table : Table α) : List String := table.entries.map Prod.fst

end Table

end Cartograph
