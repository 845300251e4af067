import Planar.Format.Preset
set_option autoImplicit false

/-!
What a heap manager is told: the format of its pictures, the room to keep around each, and
the alignment of lines.
-/

namespace Planar

inductive FormatSpec where
  | preset (name : String)
  | custom (format : PictureFormat)
  deriving DecidableEq, Repr

inductive FileFault where
  | notFound
  | permissionDenied
  | notDirectory
  | isDirectory
  | nameTooLong
  | notText
  | other (text : String)
  deriving DecidableEq, Repr

def FileFault.message : FileFault → String
  | .notFound => "No such file or directory (os error 2)"
  | .permissionDenied => "Permission denied (os error 13)"
  | .notDirectory => "Not a directory (os error 20)"
  | .isDirectory => "Is a directory (os error 21)"
  | .nameTooLong => "File name too long (os error 36)"
  | .notText => "stream did not contain valid UTF-8"
  | .other text => text

inductive ConfigFault where
  | file (why : FileFault)
  | malformed (why : String)
  | notFound (path : String)
  | unknownPreset (name : String)
  | invalid (why : Fault)
  deriving DecidableEq, Repr

def ConfigFault.message : ConfigFault → String
  | .file why => "I/O error: " ++ why.message
  | .malformed why => "YAML parse error: " ++ why
  | .notFound path => "config file not found: " ++ path
  | .unknownPreset name => "unknown format preset: " ++ name
  | .invalid why => "invalid config: " ++ why.message

def ConfigFault.causes : ConfigFault → List String
  | .file why => [why.message]
  | .malformed why => [why]
  | .notFound _ | .unknownPreset _ => []
  | .invalid why => [why.message]

def FormatSpec.resolve : FormatSpec → Except ConfigFault PictureFormat
  | .preset name =>
    match PictureFormat.preset? name with
    | none => .error (.unknownPreset name)
    | some format => (format.validate.mapError .invalid).map fun _ => format
  | .custom format => (format.validate.mapError .invalid).map fun _ => format

def defaultAlign : Nat := 16

structure Config where
  format : FormatSpec
  /-- Pixels kept left and right of each line. -/
  hprepend : Nat := 0
  happend : Nat := 0
  /-- Lines kept above and below the picture. -/
  vprepend : Nat := 0
  vappend : Nat := 0
  /-- Bytes; lines start at multiples of this. Zero counts as one. -/
  align : Nat := defaultAlign
  deriving DecidableEq, Repr

end Planar
