import Planar.Geometry.RawRegion
set_option autoImplicit false

/-!
Crops and growths. A positive skip drops pixels at the left or lines at the top, a negative
one adds them, and the new size fixes the right and bottom edges.
-/

namespace Planar

/-- A crop or growth as callers write it; a new size of −1 keeps the right or bottom edge. -/
structure RawResize where
  hskip : Int
  vskip : Int
  newHsize : Int
  newVsize : Int
  deriving DecidableEq, Repr

inductive ResizeKind where
  | shrink | grow
  deriving DecidableEq, Repr

/-- The part that the old and the new picture share, in the coordinates of each. -/
structure Overlap where
  src : Region
  dst : Region
  deriving DecidableEq, Repr

structure ResizeRequest where
  hskip : Int
  vskip : Int
  newHsize : Nat
  newVsize : Nat
  /-- The size of the picture before the resize. -/
  size : Size
  deriving DecidableEq, Repr

def RawResize.resolve (raw : RawResize) (size : Size) : Except Fault ResizeRequest := do
  let (totalH, totalV) ← size.totals
  if raw.hskip > totalH || raw.vskip > totalV then
    throw (.invalid (.skipExceeds raw.hskip raw.vskip totalH totalV))
  let newHsize := if raw.newHsize = toEnd then totalH - raw.hskip else raw.newHsize
  let newVsize := if raw.newVsize = toEnd then totalV - raw.vskip else raw.newVsize
  if newHsize < 0 || newVsize < 0 then
    throw (.invalid (.negativeSize newHsize newVsize))
  if newHsize < Word.negate raw.hskip || newVsize < Word.negate raw.vskip then
    throw (.invalid (.uncoveredGrowth newHsize newVsize raw.hskip raw.vskip))
  let grid := max size.macropixel 1
  if raw.hskip % grid ≠ 0 then throw (.misaligned "hskip" raw.hskip grid)
  if newHsize % grid ≠ 0 then throw (.misaligned "new_hsize" newHsize grid)
  return ⟨raw.hskip, raw.vskip, newHsize.toNat, newVsize.toNat, size⟩

namespace ResizeRequest

def staysInside (skip : Int) (new total : Nat) : Bool :=
  0 ≤ skip && Word.saturate (skip.toNat + new) ≤ total

/-- Only a request that adds nothing on any side is a shrink. -/
def kind (q : ResizeRequest) : ResizeKind :=
  if staysInside q.hskip q.newHsize q.size.hsize && staysInside q.vskip q.newVsize q.size.vsize
  then .shrink else .grow

def origins (skip : Int) : Nat × Nat := if skip < 0 then (skip.natAbs, 0) else (0, skip.toNat)

def overlap (q : ResizeRequest) : Overlap :=
  let (dstH, srcH) := origins q.hskip
  let (dstV, srcV) := origins q.vskip
  let hsize := min (q.newHsize - dstH) (q.size.hsize - srcH)
  let vsize := min (q.newVsize - dstV) (q.size.vsize - srcV)
  ⟨⟨srcH, srcV, hsize, vsize⟩, ⟨dstH, dstV, hsize, vsize⟩⟩

end ResizeRequest

end Planar
