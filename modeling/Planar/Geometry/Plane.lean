import Planar.Word
import Planar.Geometry.Region
set_option autoImplicit false

/-!
How a plane stores its part of a picture: sampling factors turn pixels and lines into bytes
and rows, and a stride separates the rows.
-/

namespace Planar

/-- Rows of `rowBytes` bytes which start `stride` bytes apart. -/
structure Shape where
  stride : Nat
  rowBytes : Nat
  rows : Nat
  deriving DecidableEq, Repr

def Shape.len (s : Shape) : Nat :=
  if s.rows = 0 ∨ s.rowBytes = 0 then 0
  else Word.saturate ((s.rows - 1) * s.stride + s.rowBytes)

/-- Where the rows of a region lie in the bytes of a plane. -/
structure Span extends Shape where
  offset : Nat
  deriving DecidableEq, Repr

namespace Span

def describe (s : Span) : String :=
  s!"PlaneSpan \x7b offset: {s.offset}, row_bytes: {s.rowBytes}, rows: {s.rows}, stride: {s.stride} \x7d"

def isEmpty (s : Span) : Bool := s.len == 0

/-- The first byte and the byte behind the last, unless no word can hold the latter. -/
def range? (s : Span) : Option (Nat × Nat) :=
  if s.offset + s.len ≤ Word.maxUnsigned then some (s.offset, s.offset + s.len) else none

end Span

/-- Layout of one plane. A factor of zero counts as one where it would divide; `checkFactors`
refuses such planes before their bytes are touched. -/
structure PlaneDesc where
  stride : Nat
  hsub : Nat
  vsub : Nat
  macropixelSize : Nat
  deriving DecidableEq, Repr

namespace PlaneDesc

def describe (d : PlaneDesc) : String :=
  s!"PlaneDesc \x7b stride: {d.stride}, hsub: {d.hsub}, vsub: {d.vsub}, macropixel_size: {d.macropixelSize} \x7d"

def rowBytes (d : PlaneDesc) (hsize macropixel : Nat) : Nat :=
  hsize / max d.hsub 1 / max macropixel 1 * d.macropixelSize

def rows (d : PlaneDesc) (vsize : Nat) : Nat := vsize / max d.vsub 1

def byteOffset (d : PlaneDesc) (hoffset voffset macropixel : Nat) : Nat :=
  d.rows voffset * d.stride + d.rowBytes hoffset macropixel

def sameSampling (d e : PlaneDesc) : Bool :=
  d.hsub == e.hsub && d.vsub == e.vsub && d.macropixelSize == e.macropixelSize

def span (d : PlaneDesc) (r : Region) (macropixel : Nat) : Span where
  stride := d.stride
  rowBytes := d.rowBytes r.hsize macropixel
  rows := d.rows r.vsize
  offset := d.byteOffset r.hoffset r.voffset macropixel

end PlaneDesc

end Planar
