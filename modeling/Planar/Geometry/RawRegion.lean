import Planar.Fault
set_option autoImplicit false

/-!
Regions as callers write them: a negative offset counts from the end, and a size of −1
reaches to the end. `RawRegion.resolve` gives the absolute region.
-/

namespace Planar

def Size.totals (s : Size) : Except Fault (Int × Int) :=
  if s.hsize > Word.maxSigned then .error (.invalid .widthTooLarge)
  else if s.vsize > Word.maxSigned then .error (.invalid .heightTooLarge)
  else .ok (s.hsize, s.vsize)

/-- The size that reaches to the end. -/
def toEnd : Int := -1

structure RawRegion where
  hoffset : Int
  voffset : Int
  hsize : Int
  vsize : Int
  deriving DecidableEq, Repr

namespace RawRegion

def full : RawRegion := ⟨0, 0, toEnd, toEnd⟩

instance : Inhabited RawRegion := ⟨full⟩

def ofRegion (r : Region) : RawRegion :=
  ⟨Word.toSigned r.hoffset, Word.toSigned r.voffset, Word.toSigned r.hsize, Word.toSigned r.vsize⟩

/-- An end that no signed word can hold lies outside like one beyond the total. -/
def exceeds (offset extent total : Int) : Bool :=
  offset > total || offset + extent > total || offset + extent < Word.minSigned

/-- Offsets are compared with the picture before negative ones are taken from the end. -/
def resolve (raw : RawRegion) (size : Size) : Except Fault Region := do
  let (totalH, totalV) ← size.totals
  if exceeds raw.hoffset raw.hsize totalH || exceeds raw.voffset raw.vsize totalV then
    throw (.invalid (.regionExceeds raw.hoffset raw.voffset raw.hsize raw.vsize totalH totalV))
  let hoffset := if raw.hoffset < 0 then raw.hoffset + totalH else raw.hoffset
  let voffset := if raw.voffset < 0 then raw.voffset + totalV else raw.voffset
  if hoffset < 0 || voffset < 0 then
    throw (.invalid (.beforeStart raw.hoffset raw.voffset))
  let hsize := if raw.hsize = toEnd then totalH - hoffset else raw.hsize
  let vsize := if raw.vsize = toEnd then totalV - voffset else raw.vsize
  if hsize < 0 || vsize < 0 then
    throw (.invalid (.negativeSize hsize vsize))
  if hoffset + hsize > totalH || voffset + vsize > totalV then
    throw (.invalid (.regionExceeds hoffset voffset hsize vsize totalH totalV))
  let grid := max size.macropixel 1
  if hoffset % grid ≠ 0 then throw (.misaligned "hoffset" hoffset grid)
  if hsize % grid ≠ 0 then throw (.misaligned "hsize" hsize grid)
  return ⟨hoffset.toNat, voffset.toNat, hsize.toNat, vsize.toNat⟩

end RawRegion

def Region.checkPlane (r : Region) (hsub vsub : Nat) : Except Fault Unit := do
  let hgrid := max hsub 1
  let vgrid := max vsub 1
  if r.hoffset % hgrid ≠ 0 then throw (.misaligned "hoffset" (Word.toSigned r.hoffset) hgrid)
  if r.hsize % hgrid ≠ 0 then throw (.misaligned "hsize" (Word.toSigned r.hsize) hgrid)
  if r.voffset % vgrid ≠ 0 then throw (.misaligned "voffset" (Word.toSigned r.voffset) vgrid)
  if r.vsize % vgrid ≠ 0 then throw (.misaligned "vsize" (Word.toSigned r.vsize) vgrid)

def PlaneDesc.checkFactors (d : PlaneDesc) (chroma : String) (macropixel : Nat) :
    Except Fault Unit :=
  if macropixel = 0 ∨ d.hsub = 0 ∨ d.vsub = 0 ∨ d.macropixelSize = 0 then
    .error (.mismatch (.zeroFactor chroma d macropixel))
  else .ok ()

end Planar
