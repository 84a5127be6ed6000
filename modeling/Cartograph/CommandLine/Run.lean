import Cartograph.CommandLine.Files
import Cartograph.CommandLine.Request
import Cartograph.Rendering.Basic
import Cartograph.Scene.Loading

/-! Carrying out what the command line asks for. -/

namespace Cartograph.CommandLine

inductive Fault where
  | notFound (file workingDirectory : String)
  | notAFile (file : String)
  | unreachable (file : String)
  | unreadable (purpose file : String)
  | configuration (file : String) (fault : Document.Fault)
  | extension (name : String)
  | scene (file : String) (fault : Scene.Fault)
  | font (file : String)
  | surface (fault : Raster.Fault)
  | directory (name : String)
  | output (file : String)
  | path (text : String) (fault : Path.Fault)
  | lost

namespace Fault

def message : Fault → String
  | notFound file place =>
    "input not found: " ++ Text.quoted file ++ " (cwd: " ++ Text.quoted place ++ ")."
  | notAFile file => "input is not a file: " ++ Text.quoted file
  | unreachable file => "stat input: " ++ Text.quoted file
  | unreadable purpose file => "read " ++ purpose ++ ": " ++ Text.quoted file
  | configuration file _ => "parse config: " ++ Text.quoted file
  | extension name => "Unsupported output extension: ." ++ name
  | scene file _ => "load scene: " ++ Text.quoted file
  | font file => "load font: " ++ Text.quoted file
  | surface _ => "create raster surface"
  | directory name => "create output directory: " ++ Text.quoted name
  | output file => "write output: " ++ Text.quoted file
  | path text _ => "parse path " ++ Path.Fault.quoted text.toList
  | lost => "index out of bounds"

def causes : Fault → List String
  | configuration _ (.rejected reason) => [reason]
  | scene _ fault => fault.causes
  | surface fault => [fault.message]
  | path _ fault => [fault.message]
  | _ => []

/-- A lost drawing ends the program at once. -/
def code : Fault → Nat
  | lost => 101
  | _ => 1

end Fault

inductive Format where
  | svg
  | png
  deriving DecidableEq, Repr

namespace Format

def ofFile (file : String) : Except Fault Format :=
  match ((FileName.extension? file).getD "").map Char.toLower with
  | "svg" => .ok svg
  | "png" => .ok png
  | name => .error (.extension name)

end Format

def apply (configuration : Configuration) : Setting → Configuration
  | .buildings buildingMode => { configuration with buildingMode }
  | .noRoofs => { configuration with drawRoofs := false }
  | .buildingColors => { configuration with useBuildingColors := true }
  | .labelMode labelMode => { configuration with labelMode }
  | .overlap overlap => { configuration with overlap }
  | .hideCredit => { configuration with showCredit := false }
  | .log _ | .output _ | .config _ | .font _ => configuration

def configOf (settings : List Setting) : Option String :=
  settings.findSome? fun
    | .config file => some file
    | _ => none

def fontOf (settings : List Setting) : Option String :=
  settings.findSome? fun
    | .font file => some file
    | _ => none

def pathReport (text : String) : Except Fault String :=
  match Path.read text with
  | .ok path => .ok (Path.text path ++ "\n" ++ (Path.toDocument path).spread 0 ++ "\n")
  | .error fault => .error (.path text fault)

section

variable {m : Type → Type} [Monad m] [Files m]

def ensureFile (file : String) : ExceptT Fault m Unit := do
  match ← Files.status (m := m) file with
  | .file => return
  | .directory => throw (.notAFile file)
  | .missing => throw (.notFound file (← Files.workingDirectory (m := m)))
  | .unreachable => throw (.unreachable file)

def readText (purpose file : String) : ExceptT Fault m String := do
  match ← Files.readText (m := m) file with
  | some text => return text
  | none => throw (.unreadable purpose file)

def loadConfiguration (file : String) : ExceptT Fault m Configuration := do
  ensureFile file
  let text ← readText "config" file
  match Document.decode Configuration.decode text with
  | .ok configuration => return configuration
  | .error fault => throw (.configuration file fault)

def loadScene (configuration : Configuration) (file : String) : ExceptT Fault m Scene := do
  let text ← readText "scene" file
  match Scene.read configuration text with
  | .ok scene => return scene
  | .error fault => throw (.scene file fault)

def loadFont (file : String) : ExceptT Fault m Font := do
  ensureFile file
  match ← Files.readFont (m := m) file with
  | .font font => return font
  | .invalid => throw (.font file)
  | .unreadable => throw (.unreadable "font" file)

/-- A font is only looked at where pixels are drawn. -/
def begin (format : Format) (size : Point Float) (font : Option String) :
    ExceptT Fault m Drawing := do
  match format with
  | .svg => return .ofSize size.x size.y
  | .png =>
    let font ← font.mapM loadFont
    match Raster.create size.x size.y font with
    | .ok raster => return .raster raster
    | .error fault => throw (.surface fault)

def finish (drawing : Drawing) (output : String) : ExceptT Fault m Unit := do
  let directory := FileName.parent output
  if !directory.isEmpty then
    if !(← Files.makeDirectory (m := m) directory) then throw (.directory directory)
  if !(← Files.write (m := m) output drawing) then throw (.output output)

/-- The settings given on the command line override the configuration. -/
def render (input output : String) (settings : List Setting) : ExceptT Fault m Unit := do
  let base ← match configOf settings with
    | some file => loadConfiguration file
    | none => pure {}
  let configuration := settings.foldl apply base
  ensureFile input
  let format ← ExceptT.mk (pure (Format.ofFile output))
  let scene ← loadScene configuration input
  let drawing ← begin format scene.size (fontOf settings)
  let drawing := (scene.render configuration drawing).surface
  if drawing.isLost then throw .lost
  finish drawing output

end

structure Outcome where
  code : Nat
  output : String
  fault : Option Fault := none
  usage : Option UsageFault := none

def Outcome.ofResult : Except Fault String → Outcome
  | .ok output => { code := 0, output }
  | .error fault => { code := fault.code, output := "", fault := some fault }

def usageText : String :=
  "Usage: mapdraw render INPUT --output FILE [--config FILE] [--buildings no|flat|isometric]\n" ++
  "         [--no-roofs] [--building-colors] [--label-mode no|main|all] [--overlap CELLS]\n" ++
  "         [--hide-credit] [--font FILE]\n" ++
  "       mapdraw path TEXT\n"

def run {m : Type → Type} [Monad m] [Files m] (arguments : List String) : m Outcome :=
  match read arguments with
  | .error usage => return { code := 2, output := "", usage := some usage }
  | .ok .help => return { code := 0, output := usageText }
  | .ok (.path text) => return .ofResult (pathReport text)
  | .ok (.render input output settings) => do
    let result ← (render input output settings : ExceptT Fault m Unit).run
    return .ofResult (result.map fun _ => "")

end Cartograph.CommandLine
