import Cartograph.CommandLine.Run
import Cartograph.Raster.Png

/-! The command line: files of the system, and what is printed. -/

namespace Cartograph.CommandLine

def succeeds (action : IO Unit) : IO Bool := do
  try
    action
    return true
  catch _ => return false

/-- No outline format is read, so every file that is there is refused as a font. -/
instance : Files IO where
  workingDirectory := return (← IO.currentDir).toString
  status name := do
    try
      match (← ((← IO.currentDir) / name).metadata).type with
      | .file => return .file
      | _ => return .directory
    catch error =>
      match error with
      | .noFileOrDirectory .. => return .missing
      | _ => return .unreachable
  readText name := do
    try return String.fromUTF8? (← IO.FS.readBinFile name)
    catch _ => return none
  readFont name := do
    try
      let _ ← IO.FS.readBinFile name
      return .invalid
    catch _ => return .unreadable
  makeDirectory name := succeeds (IO.FS.createDirAll name)
  write name drawing := succeeds <|
    match drawing with
    | .vector markup => IO.FS.writeFile name markup.document
    | .raster image => IO.FS.writeBinFile name (Png.encode image)

def printFault (fault : Fault) : IO Unit := do
  IO.eprintln ("Error: " ++ fault.message)
  for cause in fault.causes do
    IO.eprintln ("    " ++ cause)

end Cartograph.CommandLine

open Cartograph.CommandLine in
def main (arguments : List String) : IO UInt32 := do
  let outcome ← run arguments
  IO.print outcome.output
  if let some fault := outcome.fault then printFault fault
  if let some usage := outcome.usage then
    IO.eprintln ("error: " ++ usage.message)
    IO.eprint usageText
  return UInt32.ofNat outcome.code
