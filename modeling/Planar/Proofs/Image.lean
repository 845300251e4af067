import Mathlib.Algebra.GroupWithZero.Nat
import Planar.Format
import Planar.Geometry.Region
import Planar.Proofs.Rows
set_option autoImplicit false

/-!
Planes in units: how many rows and bytes so many lines and pixels are, where a region lies, and
which bytes of a packed image are whose.
-/

namespace Planar

namespace PlaneFormat

def rows (f : PlaneFormat) (vsize : Nat) : Nat := vsize / f.vsub

def columns (f : PlaneFormat) (macropixel hsize : Nat) : Nat := hsize / (f.hsub * macropixel)

def width (f : PlaneFormat) (macropixel hsize : Nat) : Nat :=
  f.columns macropixel hsize * f.macropixelSize

def area (f : PlaneFormat) (size : Size) : Nat :=
  f.rows size.vsize * f.width size.macropixel size.hsize

theorem width_mono (f : PlaneFormat) {macropixel a b : Nat} (h : a ≤ b) :
    f.width macropixel a ≤ f.width macropixel b :=
  Nat.mul_le_mul_right _ (Nat.div_le_div_right h)

theorem width_lt {f : PlaneFormat} {macropixel total c : Nat} {r : Region} (hr : r.right ≤ total)
    (hc : c < f.width macropixel r.hsize) :
    f.width macropixel r.hoffset + c < f.width macropixel total := by
  have hmono : f.width macropixel r.right ≤ f.width macropixel total := f.width_mono hr
  have hadd : f.width macropixel r.hoffset + f.width macropixel r.hsize ≤
      f.width macropixel r.right := by
    simp only [width, columns, Region.right, ← Nat.add_mul]
    exact Nat.mul_le_mul_right _ Nat.div_add_div_le_add_div
  omega

end PlaneFormat

/-! ### Packed images -/

def PictureFormat.packedLen (format : PictureFormat) (size : Size) : Nat :=
  (format.planes.map fun f => f.area size).sum

/-- The planes of a packed image, each with the bytes that are left for it. -/
def packedParts (size : Size) : List PlaneFormat → List UInt8 →
    List (PlaneFormat × (Nat → Nat → UInt8))
  | [], _ => []
  | f :: fs, bytes =>
    (f, View.packedByte bytes (f.width size.macropixel size.hsize)) ::
      packedParts size fs (bytes.drop (f.area size))

theorem formats_packedParts (size : Size) (fs : List PlaneFormat) (bytes : List UInt8) :
    (packedParts size fs bytes).map Prod.fst = fs := by
  induction fs generalizing bytes with
  | nil => rfl
  | cons f fs ih =>
    rw [packedParts, List.map_cons, ih]

theorem chroma_packedParts (size : Size) (fs : List PlaneFormat) (bytes : List UInt8) :
    (packedParts size fs bytes).map (·.1.chroma) = fs.map PlaneFormat.chroma := by
  have h := congrArg (List.map PlaneFormat.chroma) (formats_packedParts size fs bytes)
  rwa [List.map_map] at h

/-! ### Blocks of a plane -/

structure Block where
  top : Nat
  left : Nat
  rows : Nat
  width : Nat

namespace Block

def Has (b : Block) (y c : Nat) : Prop :=
  b.top ≤ y ∧ y < b.top + b.rows ∧ b.left ≤ c ∧ c < b.left + b.width

instance (b : Block) (y c : Nat) : Decidable (b.Has y c) :=
  inferInstanceAs (Decidable (_ ∧ _ ∧ _ ∧ _))

/-- New bytes in the block, counted from its corner, and the old ones around it. -/
def paint (b : Block) (inner outer : Nat → Nat → UInt8) (y c : Nat) : UInt8 :=
  if b.Has y c then inner (y - b.top) (c - b.left) else outer y c

theorem paint_congr {b : Block} {inner inner' : Nat → Nat → UInt8}
    (hi : ∀ y c, y < b.rows → c < b.width → inner y c = inner' y c) (outer : Nat → Nat → UInt8)
    (y c : Nat) : b.paint inner outer y c = b.paint inner' outer y c := by
  unfold paint
  split
  · rename_i hin
    obtain ⟨htop, hbottom, hleft, hright⟩ := hin
    exact hi _ _ (by omega) (by omega)
  · rfl

end Block

theorem Block.paint_inside {b : Block} {y c : Nat} (hy : y < b.rows) (hc : c < b.width)
    (inner outer : Nat → Nat → UInt8) : b.paint inner outer (b.top + y) (b.left + c) = inner y c := by
  have hin : b.Has (b.top + y) (b.left + c) := ⟨by omega, by omega, by omega, by omega⟩
  rw [paint, if_pos hin, Nat.add_sub_cancel_left, Nat.add_sub_cancel_left]

def PlaneFormat.block (f : PlaneFormat) (macropixel : Nat) (r : Region) : Block :=
  ⟨f.rows r.voffset, f.width macropixel r.hoffset, f.rows r.vsize, f.width macropixel r.hsize⟩

def PlaneFormat.shows (f : PlaneFormat) (macropixel : Nat) (r : Region)
    (see : String → Nat → Nat → UInt8) (y c : Nat) : UInt8 :=
  see f.chroma (f.rows r.voffset + y) (f.width macropixel r.hoffset + c)

end Planar
