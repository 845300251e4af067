import Planar.Yaml.Cursor
set_option autoImplicit false

/-!
The text of scalars: folding of line breaks, escapes, and the indentation of block scalars.
-/

namespace Planar.Yaml.Scalar

structure Gap where
  blanks : List Char
  breaks : List Char
  /-- The first line break was escaped and is not among `breaks`. -/
  escaped : Bool

namespace Gap

def none : Gap := ⟨[], [], false⟩

def hasBreak (g : Gap) : Bool := g.escaped || !g.breaks.isEmpty

/-- One line feed becomes a space, and of several the first disappears. -/
def text (g : Gap) : List Char :=
  if g.escaped then g.breaks
  else match g.breaks with
    | [] => g.blanks
    | ['\n'] => [' ']
    | '\n' :: more => more
    | breaks => breaks

end Gap

/-- Reads on to the next character that is neither blank nor break. Behind a line break, a tab
left of column `limit` is an error. -/
def readGap (limit : Nat) : Nat → Gap → Cursor → Except String (Gap × Cursor)
  | 0, gap, c => .ok (gap, c)
  | fuel + 1, gap, c =>
    match c.peek with
    | some x =>
      if isBlank x then
        if !gap.hasBreak then readGap limit fuel { gap with blanks := gap.blanks ++ [x] } c.skip
        else if x == '\t' && c.column < limit then .error "a tab violates the indentation"
        else readGap limit fuel gap c.skip
      else if isBreak x then
        readGap limit fuel { gap with breaks := gap.breaks ++ c.lineBreak } c.skipLine
      else .ok (gap, c)
    | none => .ok (gap, c)

def readPlainWord (inFlow : Bool) : Nat → List Char → Cursor → Except String (List Char × Cursor)
  | 0, word, c => .ok (word.reverse, c)
  | fuel + 1, word, c =>
    match c.peek with
    | none => .ok (word.reverse, c)
    | some x =>
      let next := c.peekAt 1
      if isBlank x || isBreak x then .ok (word.reverse, c)
      else if inFlow && x == ':' &&
          next.any [',', '?', '[', ']', '\x7b', '\x7d'].contains then
        .error "a colon touches a flow indicator"
      else if x == ':' && isGap next then .ok (word.reverse, c)
      else if inFlow && [',', '[', ']', '\x7b', '\x7d'].contains x then .ok (word.reverse, c)
      else readPlainWord inFlow fuel (x :: word) c.skip

/-- Reads a plain scalar, whose further lines begin at column `indent` at least. Tells whether
a line break was read behind its last word. -/
def readPlain (indent : Nat) (inFlow : Bool) :
    Nat → List Char → Gap → Cursor → Except String (List Char × Bool × Cursor)
  | 0, text, gap, c => .ok (text, gap.hasBreak, c)
  | fuel + 1, text, gap, c => do
    if c.atSeparator || c.peek == some '#' then return (text, gap.hasBreak, c)
    let (word, c) ← readPlainWord inFlow c.left [] c
    let text := if word.isEmpty then text else text ++ gap.text ++ word
    let gap := if word.isEmpty then gap else .none
    if c.peek.isNone || !isGap c.peek then return (text, gap.hasBreak, c)
    let (gap, c) ← readGap indent (c.left + 1) gap c
    if !inFlow && c.column < indent then return (text, gap.hasBreak, c)
    readPlain indent inFlow fuel text gap c

def hexDigit? (c : Char) : Option Nat :=
  if c.isDigit then some (c.toNat - '0'.toNat)
  else if 'a' ≤ c && c ≤ 'f' then some (c.toNat - 'a'.toNat + 10)
  else if 'A' ≤ c && c ≤ 'F' then some (c.toNat - 'A'.toNat + 10)
  else none

def hexNumber? (digits : List Char) : Option Nat :=
  digits.foldlM (fun n c => (hexDigit? c).map (n * 16 + ·)) 0

def escape? : Char → Option Char
  | '0' => some '\x00'
  | 'a' => some '\x07'
  | 'b' => some '\x08'
  | 't' | '\t' => some '\t'
  | 'n' => some '\n'
  | 'v' => some '\x0b'
  | 'f' => some '\x0c'
  | 'r' => some '\r'
  | 'e' => some '\x1b'
  | ' ' => some ' '
  | '\x22' => some '\x22'
  | '/' => some '/'
  | '\\' => some '\\'
  | 'N' => some '\u0085'
  | '_' => some '\u00a0'
  | 'L' => some '\u2028'
  | 'P' => some '\u2029'
  | _ => none

def escapeDigits? : Char → Option Nat
  | 'x' => some 2
  | 'u' => some 4
  | 'U' => some 8
  | _ => none

def readEscape (c : Cursor) : Except String (Char × Cursor) :=
  match c.peekAt 1 with
  | none => .error "unknown escape"
  | some x =>
    match escape? x, escapeDigits? x with
    | some y, _ => .ok (y, c.skipMany 2)
    | none, some count =>
      let digits := (c.rest.drop 2).take count
      match hexNumber? digits with
      | some n =>
        if digits.length < count then .error "too few hexadecimal digits"
        else if n.isValidChar then .ok (Char.ofNat n, c.skipMany (2 + count))
        else .error "an escape is no character"
      | none => .error "an escape is not hexadecimal"
    | none, none => .error "unknown escape"

/-- The characters of a quoted scalar up to the next blank, break or closing quote. Tells
whether an escaped line break ended them. -/
def readQuotedWord (single : Bool) :
    Nat → List Char → Cursor → Except String (List Char × Bool × Cursor)
  | 0, word, c => .ok (word.reverse, false, c)
  | fuel + 1, word, c =>
    match c.peek with
    | none => .ok (word.reverse, false, c)
    | some x =>
      if isBlank x || isBreak x then .ok (word.reverse, false, c)
      else if single && x == '\x27' && c.peekAt 1 == some '\x27' then
        readQuotedWord single fuel (x :: word) (c.skipMany 2)
      else if x == (if single then '\x27' else '\x22') then .ok (word.reverse, false, c)
      else if !single && x == '\\' then
        if (c.peekAt 1).any isBreak then .ok (word.reverse, true, c.skip.skipLine)
        else match readEscape c with
          | .ok (y, c) => readQuotedWord single fuel (y :: word) c
          | .error why => .error why
      else readQuotedWord single fuel (x :: word) c.skip

def readQuoted (single : Bool) : Nat → List Char → Cursor → Except String (List Char × Cursor)
  | 0, _, _ => .error "the text ends in a quoted scalar"
  | fuel + 1, text, c => do
    if c.atSeparator then throw "a document separator in a quoted scalar"
    if c.peek.isNone then throw "the text ends in a quoted scalar"
    let (word, escaped, c) ← readQuotedWord single c.left [] c
    let text := text ++ word
    if c.peek == some (if single then '\x27' else '\x22') then return (text, c.skip)
    let (gap, c) ← readGap 0 (c.left + 1) { Gap.none with escaped } c
    readQuoted single fuel (text ++ gap.text) c

inductive Chomping where
  | strip | clip | keep
  deriving DecidableEq

/-- Skips indentation and empty lines before a line of a block scalar. `indent` is zero while
it is unknown; `widest` is the widest indentation so far. -/
def readBlockBreaks (indent : Nat) :
    Nat → Nat → List Char → Cursor → Except String (Nat × List Char × Cursor)
  | 0, widest, breaks, c => .ok (widest, breaks, c)
  | fuel + 1, widest, breaks, c =>
    let spaces := (c.rest.takeWhile (· == ' ')).length
    let c := c.skipMany (if indent = 0 then spaces else min spaces (indent - c.column))
    let widest := max widest c.column
    if (indent = 0 || c.column < indent) && c.peek == some '\t' then
      .error "a tab in place of indentation"
    else if c.peek.any isBreak then
      readBlockBreaks indent fuel widest (breaks ++ c.lineBreak) c.skipLine
    else .ok (widest, breaks, c)

/-- The lines of a block scalar. `leading` is the break that ended the line before and
`trailing` the empty lines behind it; a fold needs a line without blanks on both sides. -/
def readBlockLines (folded : Bool) (indent : Nat) :
    Nat → List Char → List Char → List Char → Bool → Cursor →
      Except String (List Char × List Char × List Char × Cursor)
  | 0, text, leading, trailing, _, c => .ok (text, leading, trailing, c)
  | fuel + 1, text, leading, trailing, blankBefore, c => do
    if c.column ≠ indent || c.peek.isNone then return (text, leading, trailing, c)
    let blankHere := c.peek.any isBlank
    let folds := folded && leading == ['\n'] && !blankBefore && !blankHere
    let between := if folds then (if trailing.isEmpty then [' '] else trailing)
      else leading ++ trailing
    let (line, c) := c.takeWhile fun x => !isBreak x
    let leading := c.lineBreak
    let (_, trailing, c) ← readBlockBreaks indent (c.left + 1) 0 [] c.skipLine
    readBlockLines folded indent fuel (text ++ between ++ line) leading trailing blankHere c

def readChomping (c : Cursor) : Option Chomping × Cursor :=
  match c.peek with
  | some '+' => (some .keep, c.skip)
  | some '-' => (some .strip, c.skip)
  | _ => (none, c)

def readIncrement (c : Cursor) : Except String (Option Nat × Cursor) :=
  match c.peek with
  | some x =>
    if !x.isDigit then .ok (none, c)
    else if x == '0' then .error "an indentation of zero"
    else .ok (some (x.toNat - '0'.toNat), c.skip)
  | none => .ok (none, c)

def readBlockHeader (c : Cursor) : Except String (Chomping × Option Nat × Cursor) := do
  match readChomping c with
  | (some chomping, c) =>
    let (increment, c) ← readIncrement c
    return (chomping, increment, c)
  | (none, c) =>
    let (increment, c) ← readIncrement c
    if increment.isNone then return (.clip, none, c)
    let (chomping, c) := readChomping c
    return (chomping.getD .clip, increment, c)

def readBlock (folded : Bool) (parent : Int) (c : Cursor) : Except String (List Char × Cursor) := do
  let (chomping, increment, c) ← readBlockHeader c
  let c := c.skipBlanks.skipComment
  if !isBreakOrEnd c.peek then throw "no line break behind a block scalar's header"
  let c := c.skipLine
  let known := match increment with
    | some n => (max parent 0).toNat + n
    | none => 0
  let (widest, trailing, c) ← readBlockBreaks known (c.left + 1) 0 [] c
  let indent := if known = 0 then max (max widest (parent + 1).toNat) 1 else known
  let (text, leading, trailing, c) ←
    readBlockLines folded indent (c.left + 1) [] [] trailing false c
  match chomping with
  | .strip => return (text, c)
  | .clip => return (text ++ leading, c)
  | .keep => return (text ++ leading ++ trailing, c)

end Planar.Yaml.Scalar
