import Planar.Yaml.Token
set_option autoImplicit false

/-!
From characters to tokens. Whether a scalar was a key shows only at the colon behind it, so
each level of flow collections remembers one place where a key may still be put in.
-/

namespace Planar.Yaml

structure Candidate where
  /-- How many tokens stand before it. -/
  position : Nat
  /-- Nothing else than a key can stand there. -/
  required : Bool
  start : Cursor

structure Scanner where
  cursor : Cursor
  tokens : Array Token
  /-- The column of the innermost block collection, and of those around it. -/
  indent : Int
  indents : List Int
  /-- One for each open flow collection and one for the block around them, innermost first. -/
  candidates : List (Option Candidate)
  keyAllowed : Bool

namespace Scanner

def ofText (text : List Char) : Scanner := ⟨.ofText text, #[], -1, [], [none], true⟩

def inFlow (s : Scanner) : Bool := s.candidates.length > 1

def emit (s : Scanner) (token : Token) : Scanner := { s with tokens := s.tokens.push token }

def moveTo (s : Scanner) (cursor : Cursor) : Scanner := { s with cursor }

def setCandidate (s : Scanner) (candidate : Option Candidate) : Scanner :=
  { s with candidates := candidate :: s.candidates.tail }

def forget (s : Scanner) : Except String Scanner :=
  match s.candidates.head?.join with
  | some candidate =>
    if candidate.required then .error "a key without a colon" else .ok (s.setCandidate none)
  | none => .ok s

def remember (s : Scanner) : Except String Scanner := do
  if !s.keyAllowed then return s
  let required := !s.inFlow && s.indent = s.cursor.column
  return (← s.forget).setCandidate (some ⟨s.tokens.size, required, s.cursor⟩)

/-- Keys stand on one line and are not longer than 1024 bytes. -/
def expire (s : Scanner) : Except String Scanner := do
  let expired (candidate : Candidate) : Bool :=
    candidate.start.line < s.cursor.line || candidate.start.index + 1024 < s.cursor.index
  if s.candidates.any fun candidate => candidate.any fun k => expired k && k.required then
    throw "a key without a colon"
  return { s with candidates := s.candidates.map fun candidate =>
    candidate.filter fun k => !expired k }

def openBlock (s : Scanner) (column position : Nat) (start : Token) : Scanner :=
  if s.inFlow || s.indent ≥ column then s
  else { s with
    indents := s.indent :: s.indents
    indent := column
    tokens := s.tokens.insertIdxIfInBounds position start }

def closeBlocksLoop (column : Int) : List Int → Scanner → Scanner
  | [], s => s
  | outer :: indents, s =>
    if s.indent > column then
      closeBlocksLoop column indents ({ s with indent := outer, indents }.emit .blockEnd)
    else s

def closeBlocks (s : Scanner) (column : Int) : Scanner :=
  if s.inFlow then s else closeBlocksLoop column s.indents s

/-- Skips blanks, comments and line breaks. A new line may start with a key. A byte order mark
at the start of a line takes up a column. -/
def skipGap : Nat → Scanner → Scanner
  | 0, s => s
  | fuel + 1, s =>
    let c := s.cursor
    let c := if c.column == 0 && c.peek == some '\ufeff' then c.skip else c
    let tabs := s.inFlow || !s.keyAllowed
    let c := c.skipWhile fun x => x == ' ' || (tabs && x == '\t')
    let c := c.skipComment
    if c.peek.any isBreak then
      skipGap fuel { s.moveTo c.skipLine with keyAllowed := s.keyAllowed || !s.inFlow }
    else s.moveTo c

def emitAt (s : Scanner) (token : Token) (length : Nat) : Scanner :=
  (s.moveTo (s.cursor.skipMany length)).emit token

def readNumber (c : Cursor) : Except String (Nat × Cursor) :=
  let (digits, c) := c.takeWhile Char.isDigit
  if digits.isEmpty || digits.length > 9 then .error "a malformed version"
  else .ok (digits.foldl (fun n x => n * 10 + (x.toNat - '0'.toNat)) 0, c)

def readDirective (c : Cursor) : Except String (Token × Cursor) := do
  let (name, c) := c.skip.takeWhile isNameChar
  if !isGap c.peek then throw "a malformed directive"
  let (token, c) ← match String.ofList name with
    | "YAML" => do
      let (major, c) ← readNumber c.skipBlanks
      if c.peek != some '.' then throw "a malformed version"
      let (minor, c) ← readNumber c.skip
      pure (Token.versionDirective major minor, c)
    | "TAG" => do
      let (handle, c) ← Tag.readHandle true c.skipBlanks
      if !c.peek.any isBlank then throw "a malformed directive"
      let (expansion, c) ← Tag.readWhole true c.skipBlanks
      if !isGap c.peek then throw "a malformed directive"
      pure (Token.tagDirective (String.ofList handle) expansion, c)
    | _ => throw "an unknown directive"
  let c := c.skipBlanks.skipComment
  if !isBreakOrEnd c.peek then throw "a malformed directive"
  return (token, c.skipLine)

def readName (c : Cursor) : Except String (String × Cursor) :=
  let (name, c) := c.skip.takeWhile isNameChar
  let ended := isGap c.peek ||
    c.peek.any ['?', ':', ',', ']', '\x7d', '%', '@', '\x60'].contains
  if name.isEmpty || !ended then .error "a malformed anchor" else .ok (String.ofList name, c)

def topLevel (s : Scanner) : Except String Scanner := do
  return { ← (s.closeBlocks (-1)).forget with keyAllowed := false }

def openFlow (s : Scanner) (start : Token) : Except String Scanner := do
  let s ← s.remember
  return { s with candidates := none :: s.candidates, keyAllowed := true }.emitAt start 1

def closeFlow (s : Scanner) (stop : Token) : Except String Scanner := do
  let s ← s.forget
  let candidates := if s.inFlow then s.candidates.tail else s.candidates
  return { s with candidates, keyAllowed := false }.emitAt stop 1

def flowEntry (s : Scanner) : Except String Scanner := do
  return { ← s.forget with keyAllowed := true }.emitAt .flowEntry 1

def blockEntry (s : Scanner) : Except String Scanner := do
  if !s.inFlow && !s.keyAllowed then throw "a sequence entry is not allowed here"
  let s ← (s.openBlock s.cursor.column s.tokens.size .blockSequenceStart).forget
  return { s with keyAllowed := true }.emitAt .blockEntry 1

def explicitKey (s : Scanner) : Except String Scanner := do
  if !s.inFlow && !s.keyAllowed then throw "a key is not allowed here"
  let s ← (s.openBlock s.cursor.column s.tokens.size .blockMappingStart).forget
  return { s with keyAllowed := !s.inFlow }.emitAt .key 1

/-- Puts in the key that ends here, and before it the start of the mapping if it is the first. -/
def value (s : Scanner) : Except String Scanner := do
  match s.candidates.head?.join with
  | some k =>
    let s := { s with tokens := s.tokens.insertIdxIfInBounds k.position .key }
    let s := (s.openBlock k.start.column k.position .blockMappingStart).setCandidate none
    return { s with keyAllowed := false }.emitAt .value 1
  | none =>
    if !s.inFlow && !s.keyAllowed then throw "a value is not allowed here"
    let s := s.openBlock s.cursor.column s.tokens.size .blockMappingStart
    return { s with keyAllowed := !s.inFlow }.emitAt .value 1

def keyLike (s : Scanner) (read : Cursor → Except String (Token × Cursor)) :
    Except String Scanner := do
  let s ← s.remember
  let (token, c) ← read s.cursor
  return { s.moveTo c with keyAllowed := false }.emit token

def anchor (s : Scanner) (make : String → Token) : Except String Scanner :=
  s.keyLike fun c => do
    let (name, c) ← readName c
    return (make name, c)

def tag (s : Scanner) : Except String Scanner :=
  s.keyLike fun c => do
    let (handle, suffix, c) ← Tag.read c
    if !isGap c.peek && !(s.inFlow && c.peek == some ',') then throw "a malformed tag"
    return (.tag handle suffix, c)

def quoted (s : Scanner) (single : Bool) : Except String Scanner :=
  s.keyLike fun c => do
    let (text, c) ← Scalar.readQuoted single c.left [] c.skip
    return (.scalar (String.ofList text) (if single then .singleQuoted else .doubleQuoted), c)

def block (s : Scanner) (folded : Bool) : Except String Scanner := do
  let s ← s.forget
  let (text, c) ← Scalar.readBlock folded s.indent s.cursor.skip
  return { s.moveTo c with keyAllowed := true }.emit
    (.scalar (String.ofList text) (if folded then .folded else .literal))

/-- Only behind a line break may a key follow. -/
def plain (s : Scanner) : Except String Scanner := do
  let s ← s.remember
  let c := s.cursor
  let (text, broken, c) ←
    Scalar.readPlain (s.indent + 1).toNat s.inFlow (c.left + 1) [] .none c
  return { s.moveTo c with keyAllowed := broken }.emit (.scalar (String.ofList text) .plain)

def isIndicator (c : Char) : Bool :=
  ['-', '?', ':', ',', '[', ']', '\x7b', '\x7d', '#', '&', '*', '!', '|', '>', '\x27', '\x22',
    '%', '@', '\x60'].contains c

def dispatch (s : Scanner) (x : Char) : Except String Scanner := do
  let c := s.cursor
  let next := c.peekAt 1
  if c.column == 0 && x == '%' then
    let s ← s.topLevel
    let (token, c) ← readDirective c
    return (s.moveTo c).emit token
  if c.atSeparator then
    return (← s.topLevel).emitAt (if x == '-' then .documentStart else .documentEnd) 3
  if x == '[' then return ← s.openFlow .flowSequenceStart
  if x == '\x7b' then return ← s.openFlow .flowMappingStart
  if x == ']' then return ← s.closeFlow .flowSequenceEnd
  if x == '\x7d' then return ← s.closeFlow .flowMappingEnd
  if x == ',' then return ← s.flowEntry
  if x == '-' && isGap next then return ← s.blockEntry
  if x == '?' && (s.inFlow || isGap next) then return ← s.explicitKey
  if x == ':' && (s.inFlow || isGap next) then return ← s.value
  if x == '*' then return ← s.anchor .alias
  if x == '&' then return ← s.anchor .anchor
  if x == '!' then return ← s.tag
  if x == '|' && !s.inFlow then return ← s.block false
  if x == '>' && !s.inFlow then return ← s.block true
  if x == '\x27' then return ← s.quoted true
  if x == '\x22' then return ← s.quoted false
  if (!isBlank x && !isIndicator x) || (x == '-' && !next.any isBlank) ||
      (!s.inFlow && (x == '?' || x == ':') && !isGap next) then
    return ← s.plain
  throw "a character that begins no token"

def finish (s : Scanner) : Except String Scanner := (s.closeBlocks (-1)).forget

def run : Nat → Scanner → Except String Scanner
  | 0, s => .ok s
  | fuel + 1, s => do
    let s ← (s.skipGap (s.cursor.left + 1)).expire
    let s := s.closeBlocks s.cursor.column
    match s.cursor.peek with
    | none => s.finish
    | some x => run fuel (← s.dispatch x)

end Scanner

/-- The tokens of a text. Each step reads a character at least, which bounds their number. -/
def Token.scan (text : String) : Except String (List Token) := do
  let chars := text.toList
  if !chars.all isAllowed then throw "a control character"
  return (← Scanner.run (chars.length + 1) (.ofText chars)).tokens.toList

end Planar.Yaml
