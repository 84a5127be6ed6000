import Cartograph.Configuration
import Cartograph.Number.Numeral
import Cartograph.Number.Binary
import Cartograph.Record.Configuration
import Cartograph.Text.Pieces
import Cartograph.Text.Quoted

/-! What is asked for on the command line. Arguments are read from left to right, and the first
one that asks for help or is at fault decides. -/

namespace Cartograph.CommandLine

inductive Setting where
  | log (filter : String)
  | output (file : String)
  | config (file : String)
  | buildings (mode : BuildingMode)
  | noRoofs
  | buildingColors
  | labelMode (mode : LabelMode)
  | overlap (cells : Nat)
  | hideCredit
  | font (file : String)

inductive Key where
  | log
  | output
  | config
  | buildings
  | noRoofs
  | buildingColors
  | labelMode
  | overlap
  | hideCredit
  | font
  deriving DecidableEq, Repr

namespace Key

def name : Key → String
  | log => "log"
  | output => "output"
  | config => "config"
  | buildings => "buildings"
  | noRoofs => "no-roofs"
  | buildingColors => "building-colors"
  | labelMode => "label-mode"
  | overlap => "overlap"
  | hideCredit => "hide-credit"
  | font => "font"

def all : List Key :=
  [log, output, config, buildings, noRoofs, buildingColors, labelMode, overlap, hideCredit, font]

def flag? : Key → Option Setting
  | noRoofs => some .noRoofs
  | buildingColors => some .buildingColors
  | hideCredit => some .hideCredit
  | _ => none

def file? (value : String) : Option String := if value.isEmpty then none else some value

/-- Digits after an optional plus sign, below 2 ^ 64. -/
def count? (value : String) : Option Nat :=
  let digits := match value.toList with
    | '+' :: rest => rest
    | rest => rest
  let count := Number.Numeral.natural digits
  if digits ≠ [] ∧ digits.all Char.isDigit ∧ count < Number.twoTo 64 then some count else none

def setting? (key : Key) (value : String) : Option Setting :=
  match key with
  | log => some (.log value)
  | output => (file? value).map .output
  | config => (file? value).map .config
  | buildings => (BuildingMode.names.lookup value).map .buildings
  | labelMode => (LabelMode.names.lookup value).map .labelMode
  | overlap => (count? value).map .overlap
  | font => (file? value).map .font
  | noRoofs | buildingColors | hideCredit => none

end Key

inductive UsageFault where
  | unknownCommand (text : String)
  | missingCommand
  | unknownOption (text : String)
  | missingValue (key : Key)
  | unexpectedValue (text : String)
  | invalidValue (key : Key) (value : String)
  | repeated (key : Key)
  | unexpectedArgument (text : String)
  | missingArgument (name : String)

namespace UsageFault

def message : UsageFault → String
  | unknownCommand text => "unknown command " ++ Text.quoted text
  | missingCommand => "a command is required"
  | unknownOption text => "unknown option " ++ Text.quoted text
  | missingValue key => "a value is required for --" ++ key.name
  | unexpectedValue text => "no value is taken by " ++ Text.quoted text
  | invalidValue key value =>
    "invalid value " ++ Text.quoted value ++ " for --" ++ key.name
  | repeated key => "--" ++ key.name ++ " is given twice"
  | unexpectedArgument text => "unexpected argument " ++ Text.quoted text
  | missingArgument name => "missing argument " ++ name

end UsageFault

inductive Item where
  | help
  | set (key : Key) (setting : Setting)
  | positional (text : String)
  | fault (fault : UsageFault)

namespace Item

/-- A lone hyphen is a value, but nothing else that begins with one. -/
def isValue (text : String) : Bool := text = "-" || text.toList.head? != some '-'

def ofValue (key : Key) (value : String) : Item :=
  match key.setting? value with
  | some setting => set key setting
  | none => fault (.invalidValue key value)

/-- An option whose value is in the same argument, or one without a value. -/
inductive Opened where
  | closed (item : Item)
  | waiting (key : Key)

def ofLong (keys : List Key) (text : String) (body : List Char) : Opened :=
  let (name, value) := match Text.splitFirst? '=' body with
    | some (name, value) => (String.ofList name, some (String.ofList value))
    | none => (String.ofList body, none)
  if name = "help" then .closed (if value.isSome then fault (.unexpectedValue text) else help)
  else match keys.find? (·.name == name) with
    | none => .closed (fault (.unknownOption text))
    | some key =>
      match key.flag?, value with
      | some setting, none => .closed (set key setting)
      | some _, some _ => .closed (fault (.unexpectedValue text))
      | none, some value => .closed (ofValue key value)
      | none, none => .waiting key

/-- A letter with its value right behind it or after an equals sign. -/
def ofShort (keys : List Key) (text : String) : List Char → Opened
  | 'h' :: _ => .closed help
  | 'o' :: value =>
    if !keys.contains .output then .closed (fault (.unknownOption text))
    else match value with
      | [] => .waiting .output
      | '=' :: rest => .closed (ofValue .output (String.ofList rest))
      | rest => .closed (ofValue .output (String.ofList rest))
  | _ => .closed (fault (.unknownOption text))

def ofText (keys : List Key) (text : String) : Opened :=
  match text.toList with
  | '-' :: '-' :: body => ofLong keys text body
  | '-' :: first :: letters => ofShort keys text (first :: letters)
  | _ => .closed (positional text)

end Item

/-- After two hyphens everything is positional. -/
def items (keys : List Key) : List String → List Item
  | [] => []
  | "--" :: rest => rest.map .positional
  | text :: rest =>
    match Item.ofText keys text, rest with
    | .closed item, rest => item :: items keys rest
    | .waiting key, [] => [.fault (.missingValue key)]
    | .waiting key, value :: rest =>
      if Item.isValue value then Item.ofValue key value :: items keys rest
      else [.fault (.missingValue key)]

structure Given where
  positional : Option String := none
  settings : List (Key × Setting) := []

inductive Request where
  | help
  | path (text : String)
  | render (input output : String) (settings : List Setting)

/-- What a list of items comes to; help ends the reading without a result. -/
def gather (given : Given) : List Item → Except UsageFault (Option Given)
  | [] => .ok (some given)
  | .help :: _ => .ok none
  | .fault fault :: _ => .error fault
  | .positional text :: rest =>
    match given.positional with
    | some _ => .error (.unexpectedArgument text)
    | none => gather { given with positional := some text } rest
  | .set key setting :: rest =>
    if given.settings.any (·.1 == key) then .error (.repeated key)
    else gather { given with settings := (key, setting) :: given.settings } rest

def readPath (arguments : List String) : Except UsageFault Request := do
  match ← gather {} (items [.log] arguments) with
  | none => return .help
  | some given =>
    match given.positional with
    | some text => return .path text
    | none => .error (.missingArgument "TEXT")

def checkInput : Item → Item
  | .positional "" => .fault (.unexpectedArgument "")
  | item => item

def outputOf (settings : List Setting) : Option String :=
  settings.findSome? fun
    | .output file => some file
    | _ => none

def readRender (arguments : List String) : Except UsageFault Request := do
  match ← gather {} ((items Key.all arguments).map checkInput) with
  | none => return .help
  | some given =>
    let settings := given.settings.map Prod.snd
    match given.positional, outputOf settings with
    | some input, some output => return .render input output settings
    | none, _ => .error (.missingArgument "INPUT")
    | _, none => .error (.missingArgument "--output")

def readHelp : List String → Except UsageFault Request
  | [] => .ok .help
  | ["render"] | ["path"] | ["help"] => .ok .help
  | text :: _ => .error (.unknownCommand text)

/-- Before the command only the log filter and help may come, the filter once. -/
def readFrom (hasLog : Bool) : List String → Except UsageFault Request
  | [] => .error .missingCommand
  | "render" :: rest => readRender rest
  | "path" :: rest => readPath rest
  | "help" :: rest => readHelp rest
  | "--" :: rest => .error (match rest with
    | [] => .missingCommand
    | text :: _ => .unexpectedArgument text)
  | text :: rest =>
    match Item.ofText [.log] text, rest with
    | .closed .help, _ => .ok .help
    | .closed (.fault fault), _ => .error fault
    | .closed (.positional text), _ => .error (.unknownCommand text)
    | .closed (.set key _), rest =>
      if hasLog then .error (.repeated key) else readFrom true rest
    | .waiting key, [] => .error (.missingValue key)
    | .waiting key, value :: rest =>
      if !Item.isValue value then .error (.missingValue key)
      else if hasLog then .error (.repeated key)
      else readFrom true rest

def read (arguments : List String) : Except UsageFault Request := readFrom false arguments

end Cartograph.CommandLine
