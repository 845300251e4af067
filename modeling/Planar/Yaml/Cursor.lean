set_option autoImplicit false

/-!
A place in a text: what is left of it, and how far it is from the beginning.
-/

namespace Planar.Yaml

structure Cursor where
  rest : List Char
  left : Nat
  /-- Bytes before this place, lines above it, and characters before it on its line. -/
  index : Nat
  line : Nat
  column : Nat
  left_eq : left = rest.length

def isBreak (c : Char) : Bool :=
  c == '\n' || c == '\r' || c == '\u0085' || c == '\u2028' || c == '\u2029'

def isBlank (c : Char) : Bool := c == ' ' || c == '\t'

/-- The end of the text counts as a blank. -/
def isGap : Option Char → Bool
  | none => true
  | some c => isBlank c || isBreak c

def isBreakOrEnd : Option Char → Bool
  | none => true
  | some c => isBreak c

def isNameChar (c : Char) : Bool := c.isAlphanum || c == '_' || c == '-'

/-- No other characters may stand in a text, not even in comments. -/
def isAllowed (c : Char) : Bool :=
  c == '\t' || c == '\n' || c == '\r' || (' ' ≤ c && c ≤ '~') || c == '\u0085' ||
    ('\u00a0' ≤ c && c ≤ '\ufffd') || 0x10000 ≤ c.toNat

namespace Cursor

def ofText (text : List Char) : Cursor := ⟨text, text.length, 0, 0, 0, rfl⟩

def peek (c : Cursor) : Option Char := c.rest.head?

def peekAt (c : Cursor) (n : Nat) : Option Char := c.rest[n]?

def byteLength (cs : List Char) : Nat := cs.foldl (fun n x => n + x.utf8Size) 0

def skipMany (c : Cursor) (n : Nat) : Cursor :=
  ⟨c.rest.drop n, c.left - n, c.index + byteLength (c.rest.take n), c.line, c.column + n,
    by rw [List.length_drop, c.left_eq]⟩

def skip (c : Cursor) : Cursor := c.skipMany 1

def skipLine (c : Cursor) : Cursor :=
  match h : c.rest with
  | '\r' :: '\n' :: rest =>
    ⟨rest, c.left - 2, c.index + 2, c.line + 1, 0, by simp [c.left_eq, h]⟩
  | x :: rest =>
    if isBreak x then
      ⟨rest, c.left - 1, c.index + x.utf8Size, c.line + 1, 0, by simp [c.left_eq, h]⟩
    else c
  | [] => c

def lineBreak (c : Cursor) : List Char :=
  match c.rest with
  | x :: _ =>
    if x == '\n' || x == '\r' || x == '\u0085' then ['\n'] else if isBreak x then [x] else []
  | [] => []

def takeWhile (c : Cursor) (p : Char → Bool) : List Char × Cursor :=
  let taken := c.rest.takeWhile p
  (taken, c.skipMany taken.length)

def skipWhile (c : Cursor) (p : Char → Bool) : Cursor := (c.takeWhile p).2

def skipBlanks (c : Cursor) : Cursor := c.skipWhile isBlank

def skipComment (c : Cursor) : Cursor :=
  if c.peek == some '#' then c.skipWhile fun x => !isBreak x else c

def startsWith (c : Cursor) (text : String) : Bool := text.toList.isPrefixOf c.rest

/-- Three hyphens or three dots alone at the start of a line separate documents. -/
def atSeparator (c : Cursor) : Bool :=
  c.column == 0 && (c.startsWith "---" || c.startsWith "...") && isGap (c.peekAt 3)

end Cursor

end Planar.Yaml
