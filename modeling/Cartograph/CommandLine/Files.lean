import Cartograph.Canvas.Drawing
import Cartograph.CommandLine.FileName

/-! The files that a command works on. The operations are given by a class, so that a command
runs alike on the files of the system and on files held in memory. -/

namespace Cartograph.CommandLine

inductive Status where
  | file
  | directory
  | missing
  | unreachable
  deriving DecidableEq, Repr

inductive FontFile where
  | unreadable
  | invalid
  | font (font : Font)

class Files (m : Type → Type) where
  workingDirectory : m String
  status : String → m Status
  /-- Absent where the content is no text. -/
  readText : String → m (Option String)
  readFont : String → m FontFile
  /-- Makes a directory together with those around it, and says whether it is there now. -/
  makeDirectory : String → m Bool
  write : String → Drawing → m Bool

inductive Content where
  | text (text : String)
  | font (font : Font)
  | image (image : Raster)

inductive Entry where
  | directory
  | file (content : Content)

/-- Files held in memory. A place is the list of steps that lead to it. -/
structure FileTree where
  root : String
  entries : List (List String × Entry) := []

namespace FileTree

def top : String := "/"

/-- The root is always there, and so are the directories around it. -/
def entry? (tree : FileTree) (place : List String) : Option Entry :=
  if place = [top] || place.all (· = "..") then some .directory else tree.entries.lookup place

def put (tree : FileTree) (place : List String) (entry : Entry) : FileTree :=
  { tree with entries := (place, entry) :: tree.entries }

def steps (name : String) : List String :=
  let steps := FileName.steps name
  let inner := steps.filter (· != "")
  if steps.getLast? == some "" then inner ++ ["."] else inner

inductive Walk where
  | at (place : List String)
  | missing
  | blocked

def outer (place : List String) : List String :=
  if place = [top] then place
  else if place.all (· = "..") then place ++ [".."]
  else place.dropLast

def longestStep : Nat := 255

def stepFrom (tree : FileTree) (place : List String) (step : String) : Walk :=
  match tree.entry? place with
  | none => .missing
  | some (.file _) => .blocked
  | some .directory =>
    if step = "." then .at place
    else if step = ".." then .at (outer place)
    else if longestStep < step.utf8ByteSize then .blocked
    else .at (place ++ [step])

def walkFrom (tree : FileTree) (place : List String) : List String → Walk
  | [] => .at place
  | step :: rest =>
    match tree.stepFrom place step with
    | .at next => tree.walkFrom next rest
    | stopped => stopped

def base (name : String) : List String := if name.toList.head? == some '/' then [top] else []

def longestName : Nat := 4095

def isTooLong (name : String) : Bool := longestName < name.utf8ByteSize

def walk (tree : FileTree) (name : String) : Walk :=
  if isTooLong name then .blocked else tree.walkFrom (base name) (steps name)

def status (tree : FileTree) (name : String) : Status :=
  match tree.walk name with
  | .missing => .missing
  | .blocked => .unreachable
  | .at place =>
    match tree.entry? place with
    | none => .missing
    | some .directory => .directory
    | some (.file _) => .file

def content? (tree : FileTree) (name : String) : Option Content :=
  match tree.walk name with
  | .at place =>
    match tree.entry? place with
    | some (.file content) => some content
    | _ => none
  | _ => none

def makeFrom (tree : FileTree) (place : List String) : List String → FileTree × Bool
  | [] => (tree, match tree.entry? place with
    | some .directory => true
    | _ => false)
  | step :: rest =>
    match tree.stepFrom place step with
    | .at next =>
      match tree.entry? next with
      | none => (tree.put next .directory).makeFrom next rest
      | some _ => tree.makeFrom next rest
    | _ => (tree, false)

def makeDirectory (tree : FileTree) (name : String) : FileTree × Bool :=
  if isTooLong name then (tree, false) else tree.makeFrom (base name) (steps name)

/-- The directory must be there, and no directory may have the name. -/
def write (tree : FileTree) (name : String) (content : Content) : FileTree × Bool :=
  match tree.walk name with
  | .at place =>
    match tree.entry? place, tree.entry? place.dropLast with
    | some .directory, _ => (tree, false)
    | _, some .directory => (tree.put place (.file content), true)
    | _, _ => (tree, false)
  | _ => (tree, false)

def contentOf : Drawing → Content
  | .vector markup => .text markup.document
  | .raster image => .image image

instance : Files (StateM FileTree) where
  workingDirectory := return (← get).root
  status name := return (← get).status name
  readText name := do
    match (← get).content? name with
    | some (.text text) => return some text
    | _ => return none
  readFont name := do
    match (← get).content? name with
    | some (.font font) => return .font font
    | some _ => return .invalid
    | none => return .unreadable
  makeDirectory name := do
    let (tree, isThere) := (← get).makeDirectory name
    set tree
    return isThere
  write name drawing := do
    let (tree, isWritten) := (← get).write name (contentOf drawing)
    set tree
    return isWritten

end FileTree

end Cartograph.CommandLine
