import Planar.Yaml.Node
import Planar.Yaml.Number
import Planar.Word
set_option autoImplicit false

/-!
What nodes stand for. A plain scalar may be null, a truth value or a number; every other one
is text, unless its tag says what it is.
-/

namespace Planar.Yaml

inductive Value where
  | null
  | bool (b : Bool)
  | natural (n : Nat)
  /-- Minus `n`, which may be zero. -/
  | negative (n : Nat)
  | float
  | text (s : String)
  | list (items : List Value)
  | table (entries : List (Value × Value))

namespace Value

def isNull (text : String) : Bool := ["null", "Null", "NULL", "~"].contains text

def bool? (text : String) : Option Bool :=
  if ["true", "True", "TRUE"].contains text then some true
  else if ["false", "False", "FALSE"].contains text then some false
  else none

def maxWide : Nat := 0xffffffffffffffffffffffffffffffff

/-- An integer, if the text is one. Those of more than 64 bits are known but not admitted. -/
def integer? (text : String) : Option (Except String Value) :=
  let cs := text.toList
  match Number.natural? Word.maxUnsigned cs, Number.negative? (Word.maxSigned + 1) cs with
  | some n, _ => some (.ok (.natural n))
  | none, some n => some (.ok (.negative n))
  | none, none =>
    if (Number.natural? maxWide cs).isSome || (Number.negative? (maxWide / 2 + 1) cs).isSome then
      some (.error "an integer of more than 64 bits")
    else none

def ofPlain (text : String) : Except String Value :=
  if text.isEmpty || isNull text then .ok .null
  else match bool? text, integer? text with
    | some b, _ => .ok (.bool b)
    | none, some result => result
    | none, none =>
      if !Number.isPadded text.toList && Number.isFloat text then .ok .float else .ok (.text text)

/-- Tags of the core schema have to fit the text. A tag that starts with a mark does not say what
a plain scalar is; every other one says that it is a text. -/
def ofTagged (tag : Tag) (style : Style) (text : String) : Except String Value :=
  if tag = .core "bool" then
    match bool? text with
    | some b => .ok (.bool b)
    | none => .error "no truth value"
  else if tag = .core "int" then
    match integer? text with
    | some result => result
    | none => .error "no integer"
  else if tag = .core "float" then
    if Number.isFloat text then .ok .float else .error "no number"
  else if tag = .core "null" then
    if isNull text then .ok .null else .error "not null"
  else if tag.octets.head? = some 33 && style = .plain then ofPlain text
  else .ok (.text text)

def ofScalar (tag : Option Tag) (style : Style) (text : String) : Except String Value :=
  match tag, style with
  | some tag, _ => ofTagged tag style text
  | none, .plain => ofPlain text
  | none, _ => .ok (.text text)

end Value

abbrev Lookup := StateT Nat (Except String)

namespace Document

/-- More than a hundred times the weight of a document is not looked up in it. -/
def resolve (d : Document) (node : Node) : Lookup Node := do
  match node with
  | .alias anchor =>
    let count := (← get) + 1
    set count
    if count > d.weight * 100 then throw "too many aliases"
    match d.anchors.lookup anchor with
    | some node => return node
    | none => throw "an unknown anchor"
  | node => return node

def value (d : Document) (depth : Nat) (node : Node) : Lookup Value := do
  match ← d.resolve node with
  | .scalar tag style text =>
    if tag.any Tag.isLocal then throw "a local tag"
    Value.ofScalar tag style text
  | .sequence tag items =>
    if tag.any Tag.isLocal then throw "a local tag"
    match depth with
    | 0 => throw "too deep"
    | depth + 1 => return .list (← items.mapM (value d depth))
  | .mapping tag entries =>
    if tag.any Tag.isLocal then throw "a local tag"
    match depth with
    | 0 => throw "too deep"
    | depth + 1 =>
      return .table (← entries.mapM fun entry => do
        return (← value d depth entry.1, ← value d depth entry.2))
  | .alias _ => throw "an alias of an alias"

end Document

end Planar.Yaml
