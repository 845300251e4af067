set_option autoImplicit false

/-!
Sizes of pictures and rectangles in them. All values count pixels and lines of the whole
picture, before a plane divides them.
-/

namespace Planar

/-- Visible dimensions, and the number of pixels that no horizontal cut may separate. -/
structure Size where
  hsize : Nat
  vsize : Nat
  macropixel : Nat
  deriving DecidableEq, Repr

def Size.describe (s : Size) : String :=
  s!"PictureSize \x7b hsize: {s.hsize}, vsize: {s.vsize}, macropixel: {s.macropixel} \x7d"

structure Region where
  hoffset : Nat
  voffset : Nat
  hsize : Nat
  vsize : Nat
  deriving DecidableEq, Repr

namespace Region

def describe (r : Region) : String :=
  s!"Region \x7b hoffset: {r.hoffset}, voffset: {r.voffset}, hsize: {r.hsize}, vsize: {r.vsize} \x7d"

def right (r : Region) : Nat := r.hoffset + r.hsize

def bottom (r : Region) : Nat := r.voffset + r.vsize

def isEmpty (r : Region) : Bool := r.hsize == 0 || r.vsize == 0

def fits (r : Region) (s : Size) : Bool := r.right ≤ s.hsize && r.bottom ≤ s.vsize

end Region

end Planar
