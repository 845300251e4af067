import Planar.CommandLine.Commands
set_option autoImplicit false

/-!
The program: commands on the files of the real machine.
-/

namespace Planar.CommandLine

def faultOfError : IO.Error → FileFault
  | .noFileOrDirectory .. => .notFound
  | .permissionDenied .. => .permissionDenied
  | .inappropriateType .. => .isDirectory
  | other => .other (toString other)

def onFiles {α : Type} (action : IO α) : IO (Except FileFault α) := do
  try return .ok (← action)
  catch why => return .error (faultOfError why)

instance : Host IO where
  fileExists path := do return (← onFiles (IO.FS.readBinFile path)) matches .ok _ | .error .isDirectory
  readFile path := onFiles do return (← IO.FS.readBinFile path).toList
  writeFile path bytes := onFiles (IO.FS.writeBinFile path ⟨bytes.toArray⟩)
  memory := return Word.maxSigned
  printLine line := IO.println line

end Planar.CommandLine

def main (args : List String) : IO UInt32 := do
  let outcome ← Planar.CommandLine.run args
  outcome.error.forM IO.eprintln
  return UInt32.ofNat outcome.exit
