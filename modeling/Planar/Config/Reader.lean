import Planar.Config
import Planar.Yaml.Value
set_option autoImplicit false

/-!
Configurations as text. Fields that the library does not know are passed over; a field that it
knows may be given once.
-/

namespace Planar.Config.Reader

open Yaml

abbrev Fields (α : Type) := List (String × α)

def addField {α : Type} (name : String) (value : α) (fields : Fields α) :
    Except String (Fields α) :=
  if (fields.lookup name).isSome then .error ("a second " ++ name) else .ok (fields ++ [(name, value)])

def need {α : Type} (name : String) (fields : Fields α) : Except String α :=
  match fields.lookup name with
  | some value => .ok value
  | none => .error ("no " ++ name)

/-- The field that a key means: a name, or the number of a field. -/
def fieldOf (known : List String) : Value → Except String (Option String)
  | .text name => .ok (known.find? (· = name))
  | .natural n => .ok known[n]?
  | _ => .error "a key that is no name"

def addEntry (known : List String) (fields : Fields Value) (entry : Value × Value) :
    Except String (Fields Value) := do
  match ← fieldOf known entry.1 with
  | some name => addField name entry.2 fields
  | none => return fields

/-- A record is a table, or the list of all its fields in order. -/
def record (known : List String) : Value → Except String (Fields Value)
  | .table entries => entries.foldlM (addEntry known) []
  | .list items =>
    if items.length = known.length then .ok (known.zip items) else .error "a list of another length"
  | _ => .error "no record"

def byte : Value → Except String Nat
  | .natural n => if n ≤ 255 then .ok n else .error "more than 255"
  | .negative 0 => .ok 0
  | _ => .error "no small number"

def text : Value → Except String String
  | .text s => .ok s
  | _ => .error "no text"

def items : Value → Except String (List Value)
  | .list items => .ok items
  | _ => .error "no list"

def plane (value : Value) : Except String PlaneFormat := do
  let fields ← record ["chroma", "hsub", "vsub", "macropixel_size"] value
  return {
    chroma := ← text (← need "chroma" fields)
    hsub := ← byte (← need "hsub" fields)
    vsub := ← byte (← need "vsub" fields)
    macropixelSize := ← byte (← need "macropixel_size" fields) }

def format (value : Value) : Except String PictureFormat := do
  let fields ← record ["macropixel", "planes"] value
  return {
    macropixel := ← byte (← need "macropixel" fields)
    planes := ← (← items (← need "planes" fields)).mapM plane }

def formatSpec : Value → Except String FormatSpec
  | .text name => .ok (.preset name)
  | value => (format value).map .custom

/-- How deep a format may be nested. The record around it takes one of the levels. -/
def maxDepth : Nat := 127

/-- A size stands in a plain scalar, or in a literal one that is tagged as an integer. -/
def size (d : Document) (node : Node) : Lookup Nat := do
  match ← d.resolve node with
  | .scalar tag style text =>
    if style = .plain || (style = .literal && tag = some (.core "int")) then
      match Number.natural? Word.maxUnsigned text.toList with
      | some n => return n
      | none => throw "no size"
    else throw "no size"
  | _ => throw "no size"

def keyName (d : Document) (node : Node) : Lookup String := do
  match ← d.resolve node with
  | .scalar _ _ text => return text
  | _ => throw "a key that is no name"

def sizeFields : List String := ["hprepend", "happend", "vprepend", "vappend", "align"]

structure Fieldset where
  format : Option FormatSpec := none
  sizes : Fields Nat := []

/-- Fields are read in the order of the text, and unknown ones not at all. -/
def addNode (d : Document) (fields : Fieldset) (entry : Node × Node) : Lookup Fieldset := do
  let name ← keyName d entry.1
  if name = "format" then
    if fields.format.isSome then throw "a second format"
    let value ← d.value maxDepth entry.2
    return { fields with format := some (← formatSpec value) }
  else if sizeFields.contains name then
    if (fields.sizes.lookup name).isSome then throw ("a second " ++ name)
    let value ← size d entry.2
    return { fields with sizes := fields.sizes ++ [(name, value)] }
  else return fields

def ofDocument (d : Document) : Lookup Config := do
  match ← d.resolve d.root with
  | .mapping _ entries =>
    let fields ← entries.foldlM (addNode d) {}
    match fields.format with
    | none => throw "no format"
    | some format =>
      let size (name : String) : Nat := (fields.sizes.lookup name).getD 0
      return {
        format
        hprepend := size "hprepend"
        happend := size "happend"
        vprepend := size "vprepend"
        vappend := size "vappend"
        align := (fields.sizes.lookup "align").getD defaultAlign }
  | _ => throw "no record"

def parse (text : String) : Except String Config := do
  match ← Document.read text with
  | some d => return (← (ofDocument d).run 0).1
  | none => throw "no document"

end Reader

def ofText (text : String) : Except ConfigFault Config := do
  let config ← (Reader.parse text).mapError .malformed
  let _ ← config.format.resolve
  return config

end Planar.Config
