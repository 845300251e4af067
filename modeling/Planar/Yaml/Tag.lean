import Planar.Yaml.Token.Scalar
set_option autoImplicit false

/-!
Tags of nodes, and how they are written. Percent escapes spell octets, so a tag need not be
text; it ends where its first zero octet is.
-/

namespace Planar.Yaml

structure Tag where
  octets : List UInt8
  deriving DecidableEq, Repr

namespace Tag

def ofOctets (octets : List UInt8) : Tag := ⟨octets.takeWhile (· ≠ 0)⟩

def ofString (text : String) : Tag := ofOctets (text.toList.flatMap String.utf8EncodeChar)

def coreSchema : Tag := ofString "tag:yaml.org,2002:"

def append (a b : Tag) : Tag := ⟨a.octets ++ b.octets⟩

instance : Append Tag := ⟨append⟩

def core (name : String) : Tag := coreSchema ++ ofString name

def mark : Tag := ofString "!"

def isEmpty (tag : Tag) : Bool := tag.octets.isEmpty

def isText (octets : List UInt8) : Bool := (String.fromUTF8? ⟨octets.toArray⟩).isSome

/-- A type of the text's own has a name behind the mark. What is no text is no name. -/
def isLocal (tag : Tag) : Bool := tag.octets.head? == some 33 && isText tag.octets.tail

def readOctet (c : Cursor) : Except String (Nat × Cursor) :=
  match c.rest with
  | '%' :: a :: b :: _ =>
    match Scalar.hexNumber? [a, b] with
    | some n => .ok (n, c.skipMany 3)
    | none => .error "a malformed escape in a tag"
  | _ => .error "a malformed escape in a tag"

def followers? (octet : Nat) : Option Nat :=
  if octet < 0x80 then some 0
  else if octet < 0xc0 then none
  else if octet < 0xe0 then some 1
  else if octet < 0xf0 then some 2
  else if octet < 0xf8 then some 3
  else none

def readFollowers : Nat → Cursor → Except String (List UInt8 × Cursor)
  | 0, c => .ok ([], c)
  | n + 1, c => do
    let (octet, c) ← readOctet c
    if octet < 0x80 || 0xc0 ≤ octet then throw "a malformed escape in a tag"
    let (octets, c) ← readFollowers n c
    return (UInt8.ofNat octet :: octets, c)

/-- The octets of one character. How many they are is checked, and not which character it is. -/
def readEscaped (c : Cursor) : Except String (List UInt8 × Cursor) := do
  let (octet, c) ← readOctet c
  match followers? octet with
  | some n =>
    let (octets, c) ← readFollowers n c
    return (UInt8.ofNat octet :: octets, c)
  | none => throw "a malformed escape in a tag"

def isUriChar (withFlow : Bool) (c : Char) : Bool :=
  isNameChar c ||
    [';', '/', '?', ':', '@', '&', '=', '+', '$', '.', '!', '~', '*', '\x27', '(', ')'].contains c ||
    (withFlow && [',', '[', ']'].contains c)

def readUri (withFlow : Bool) :
    Nat → List UInt8 → Cursor → Except String (List UInt8 × Cursor)
  | 0, octets, c => .ok (octets, c)
  | fuel + 1, octets, c =>
    match c.peek with
    | some x =>
      if x == '%' then do
        let (more, c) ← readEscaped c
        readUri withFlow fuel (octets ++ more) c
      else if isUriChar withFlow x then
        readUri withFlow fuel (octets ++ String.utf8EncodeChar x) c.skip
      else .ok (octets, c)
    | none => .ok (octets, c)

/-- A tag without a handle, or what a handle stands for. It has a character at least, be it the
zero octet. -/
def readWhole (withFlow : Bool) (c : Cursor) : Except String (Tag × Cursor) := do
  let (octets, c) ← readUri withFlow c.left [] c
  if octets.isEmpty then throw "an empty tag"
  return (ofOctets octets, c)

def readHandle (directive : Bool) (c : Cursor) : Except String (List Char × Cursor) := do
  if c.peek != some '!' then throw "a tag without its mark"
  let (name, c) := c.skip.takeWhile isNameChar
  if c.peek == some '!' then return ('!' :: name ++ ['!'], c.skip)
  if directive && !name.isEmpty then throw "a tag handle without its end"
  return ('!' :: name, c)

def read (c : Cursor) : Except String (String × Tag × Cursor) := do
  if c.peekAt 1 == some '<' then
    let (tag, c) ← readWhole true (c.skipMany 2)
    if c.peek != some '>' then throw "a malformed tag"
    return ("", tag, c.skip)
  let (handle, c) ← readHandle false c
  if handle.length > 1 && handle.getLast? == some '!' then
    let (suffix, c) ← readWhole false c
    return (String.ofList handle, suffix, c)
  let (octets, c) ← readUri false c.left (handle.tail.flatMap String.utf8EncodeChar) c
  let suffix := ofOctets octets
  if suffix.isEmpty then return ("", mark, c)
  return ("!", suffix, c)

end Tag

end Planar.Yaml
