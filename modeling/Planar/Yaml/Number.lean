set_option autoImplicit false

/-!
Which plain scalars are numbers. Digits behind a leading zero are text, not a number.
-/

namespace Planar.Yaml.Number

def digit? (radix : Nat) (c : Char) : Option Nat :=
  let value :=
    if c.isDigit then c.toNat - '0'.toNat
    else if 'a' ≤ c && c ≤ 'f' then c.toNat - 'a'.toNat + 10
    else if 'A' ≤ c && c ≤ 'F' then c.toNat - 'A'.toNat + 10
    else radix
  if value < radix then some value else none

def digits? (radix : Nat) (cs : List Char) : Option Nat :=
  if cs.isEmpty then none
  else cs.foldlM (fun n c => (digit? radix c).map (n * radix + ·)) 0

def atMost (limit : Nat) (n : Option Nat) : Option Nat := n.filter (· ≤ limit)

def dropSign : List Char → List Char
  | '-' :: rest => rest
  | '+' :: rest => rest
  | cs => cs

def isPadded (cs : List Char) : Bool :=
  match dropSign cs with
  | '0' :: c :: rest => (c :: rest).all Char.isDigit
  | _ => false

def radixed? : List Char → Option (Nat × List Char)
  | '0' :: 'x' :: rest => some (16, rest)
  | '0' :: 'o' :: rest => some (8, rest)
  | '0' :: 'b' :: rest => some (2, rest)
  | _ => none

def natural? (limit : Nat) (cs : List Char) : Option Nat :=
  let unsigned := match cs with
    | '+' :: rest => rest
    | _ => cs
  match radixed? unsigned with
  | some (radix, rest) => atMost limit (digits? radix rest)
  | none => if isPadded cs then none else atMost limit (digits? 10 unsigned)

def negative? (limit : Nat) (cs : List Char) : Option Nat :=
  match cs with
  | '-' :: rest =>
    match radixed? rest with
    | some (radix, rest) => atMost limit (digits? radix rest)
    | none => if isPadded cs then none else atMost limit (digits? 10 rest)
  | _ => none

/-- The parts of a decimal fraction: its digits without the point, and the power of ten that
scales them. -/
structure Decimal where
  digits : List Char
  exponent : Int

def integer? (cs : List Char) : Option Int :=
  match cs with
  | '-' :: rest => (digits? 10 rest).map fun n => -(n : Int)
  | '+' :: rest => (digits? 10 rest).map fun n => (n : Int)
  | _ => (digits? 10 cs).map fun n => (n : Int)

/-- A point may stand before, between or behind the digits, but some digit has to be there. -/
def decimal? (cs : List Char) : Option Decimal := do
  let whole := cs.takeWhile Char.isDigit
  let rest := cs.dropWhile Char.isDigit
  let (fraction, rest) := match rest with
    | '.' :: rest => (rest.takeWhile Char.isDigit, rest.dropWhile Char.isDigit)
    | _ => ([], rest)
  if whole.isEmpty && fraction.isEmpty then none
  let exponent ← match rest with
    | [] => some 0
    | 'e' :: power => integer? power
    | 'E' :: power => integer? power
    | _ => none
  return ⟨whole ++ fraction, exponent - fraction.length⟩

/-- Values that round to no double are larger than the largest by half a unit in its last
place. A power of ten out of reach of the digits decides without being computed. -/
def isFinite (d : Decimal) : Bool :=
  let digits := d.digits.dropWhile (· == '0')
  let magnitude := (digits.length : Int) + d.exponent
  if digits.isEmpty || magnitude < 300 then true
  else if magnitude > 320 then false
  else
    let n := (digits? 10 digits).getD 0
    let limit := (1 <<< 1024) - (1 <<< 970)
    if d.exponent < 0 then n < limit * Nat.pow 10 d.exponent.natAbs
    else n * Nat.pow 10 d.exponent.toNat < limit

def isNamedFloat (text : String) : Bool :=
  [".inf", ".Inf", ".INF", "+.inf", "+.Inf", "+.INF", "-.inf", "-.Inf", "-.INF", ".nan", ".NaN",
    ".NAN"].contains text

def isFloat (text : String) : Bool :=
  isNamedFloat text || (decimal? (dropSign text.toList)).any isFinite

end Planar.Yaml.Number
