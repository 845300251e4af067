import Planar.Fault
set_option autoImplicit false

/-!
The bytes that blank a plane: zero for luma, alpha and primaries, mid-range for colour
differences.
-/

namespace Planar.Chroma

namespace Component

def bytes (c : Component) : Nat := if c.bits > 8 then 2 else 1

def neutral (c : Component) : Nat :=
  match c.letter.role with
  | .colorDifference => 1 <<< (c.bits - 1)
  | _ => 0

def encode (order : Option ByteOrder) (value : Nat) : List UInt8 :=
  match order with
  | none => [UInt8.ofNat value]
  | some .little => [UInt8.ofNat value, UInt8.ofNat (value / 256)]
  | some .big => [UInt8.ofNat (value / 256), UInt8.ofNat value]

def neutralBytes (c : Component) : List UInt8 := encode c.order c.neutral

end Component

def parse (name : String) : Except Fault (List Component) :=
  (Name.read name.toList).mapError fun why => .unsupported (.chromaName name why)

def patternLen (components : List Component) : Nat := components.foldr (fun c len => c.bytes + len) 0

def neutralPattern (components : List Component) : List UInt8 :=
  components.flatMap Component.neutralBytes

def repetitions (name : String) (macropixelSize : Nat) : Except Fault (Nat × List UInt8) := do
  let pattern := neutralPattern (← parse name)
  if macropixelSize = 0 ∨ macropixelSize % pattern.length ≠ 0 then
    throw (.unsupported (.chromaPattern name pattern.length macropixelSize))
  return (macropixelSize / pattern.length, pattern)

/-- One macropixel of a blank plane: the pattern of its samples, as often as it fits. -/
def neutralFill (name : String) (macropixelSize : Nat) : Except Fault (List UInt8) := do
  let (count, pattern) ← repetitions name macropixelSize
  return (List.replicate count pattern).flatten

/-- The fill as one block of memory. A larger one than there can be is not even begun. -/
def neutralBlock (name : String) (macropixelSize : Nat) : Except Stop (List UInt8) := do
  let _ ← (repetitions name macropixelSize : Except Fault _)
  if macropixelSize > Word.maxSigned then throw .crash
  neutralFill name macropixelSize

end Planar.Chroma
