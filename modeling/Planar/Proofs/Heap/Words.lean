import Planar.Proofs.Heap.Mapping
import Planar.Proofs.Heap.Primitive
set_option autoImplicit false

/-!
Machine words. Sizes are unbounded numbers everywhere, so the way to the bytes of a region is gone once
more in words, where every sum and every product may fail. In a heap that calls lead to none of them
does.
-/

namespace Planar

def Word.checked (n : Nat) : Option Nat := if n ≤ maxUnsigned then some n else none

theorem Word.checked_of_le {n : Nat} (h : n ≤ maxUnsigned) : checked n = some n := if_pos h

theorem Word.checked_of_not_le {n : Nat} (h : ¬ n ≤ maxUnsigned) : checked n = none := if_neg h

namespace PlaneDesc

def rowBytes? (d : PlaneDesc) (hsize macropixel : Nat) : Option Nat :=
  Word.checked (hsize / max d.hsub 1 / max macropixel 1 * d.macropixelSize)

def byteOffset? (d : PlaneDesc) (hoffset voffset macropixel : Nat) : Option Nat := do
  let above ← Word.checked (d.rows voffset * d.stride)
  let left ← d.rowBytes? hoffset macropixel
  Word.checked (above + left)

def span? (d : PlaneDesc) (r : Region) (macropixel : Nat) : Option Span := do
  let offset ← d.byteOffset? r.hoffset r.voffset macropixel
  let rowBytes ← d.rowBytes? r.hsize macropixel
  return ⟨⟨d.stride, rowBytes, d.rows r.vsize⟩, offset⟩

theorem rowBytes?_of_le {d : PlaneDesc} {hsize macropixel : Nat}
    (h : d.rowBytes hsize macropixel ≤ Word.maxUnsigned) :
    d.rowBytes? hsize macropixel = some (d.rowBytes hsize macropixel) :=
  Word.checked_of_le h

end PlaneDesc

/-- `Shape.len` in words that do not stop at the largest one. -/
def Shape.len? (s : Shape) : Option Nat :=
  if s.rows = 0 ∨ s.rowBytes = 0 then some 0
  else do
    let above ← Word.checked ((s.rows - 1) * s.stride)
    Word.checked (above + s.rowBytes)

theorem Shape.len?_of_regular {s : Shape} (hs : 0 < s.rowBytes → s.Regular) : s.len? = some s.len := by
  unfold len?
  by_cases he : s.rows = 0 ∨ s.rowBytes = 0
  · rw [if_pos he, Shape.len, if_pos he]
  · rw [not_or] at he
    have hregular := hs (Nat.pos_of_ne_zero he.2)
    have hlen := hregular.len (Nat.pos_of_ne_zero he.1)
    have hle : s.len ≤ Word.maxUnsigned := by
      unfold len
      split
      · exact Nat.zero_le _
      · exact Word.saturate_le _
    have habove : (s.rows - 1) * s.stride ≤ Word.maxUnsigned := by omega
    rw [if_neg (not_or.mpr he), Word.checked_of_le habove]
    change Word.checked ((s.rows - 1) * s.stride + s.rowBytes) = some s.len
    rw [← hlen, Word.checked_of_le hle]

def Picture.span? (picture : Picture) (s : Storage) (plane : PlaneStore) (r : Region) : Option Span := do
  let hoffset ← Word.checked (picture.window.hoffset + r.hoffset)
  let voffset ← Word.checked (picture.window.voffset + r.voffset)
  plane.desc.span? ⟨hoffset, voffset, r.hsize, r.vsize⟩ s.macropixel

structure Storage.InWords (s : Storage) : Prop where
  hsize : s.hsize ≤ Word.maxUnsigned
  vsize : s.vsize ≤ Word.maxUnsigned
  strides : ∀ p ∈ s.planes, p.desc.stride ≤ Word.maxUnsigned

/-- The corner of a block lies in its plane. If there is a row above it, then the plane has as many
bytes as a stride, and both parts of the offset are signed words. -/
theorem Span.Lies.corner_le {span : Span} {p : PlaneStore} {top left : Nat} (hl : span.Lies p top left)
    (hs : p.desc.stride ≤ Word.maxUnsigned) :
    top * p.desc.stride ≤ Word.maxUnsigned ∧ top * p.desc.stride + left ≤ Word.maxUnsigned := by
  have htwo : Word.maxSigned + Word.maxSigned ≤ Word.maxUnsigned := by decide
  have hwidth := hl.width
  have hbounded := hl.bounded
  have hheight := hl.height
  rw [Nat.add_mul] at hheight
  cases top with
  | zero => omega
  | succ above =>
    rw [Nat.succ_mul] at hheight ⊢
    omega

namespace Storage.InWords

variable {s : Storage} {picture : Picture} {p : PlaneStore} {r : Region}

theorem write (hs : s.InWords) (chroma : String) (start : Nat) (view : View) :
    Storage.InWords { s with planes := writePlane chroma start view s.planes } where
  hsize := hs.hsize
  vsize := hs.vsize
  strides := by
    intro p hp
    obtain ⟨q, hq, hd, -⟩ := mem_writePlane hp
    exact hd ▸ hs.strides q hq

theorem of_grants {m : Manager} {hsize vsize : Nat} (hg : m.Grants hsize vsize) :
    (m.blankStorage hsize vsize).InWords where
  hsize := hg.totalH
  vsize := hg.totalV
  strides := by
    intro p hp
    obtain ⟨f, hf, rfl⟩ := List.mem_map.mp hp
    exact (hg.planes f hf).1

theorem span?_of_fits (hs : s.InWords) (hp : p ∈ s.planes) (hf : picture.Fits s p)
    (hright : r.right ≤ picture.window.hsize) (hbottom : r.bottom ≤ picture.window.vsize) :
    picture.span? s p r = some (picture.span s p r) := by
  have hlies := hf.lies hright hbottom
  have hstride := hs.strides p hp
  have hhsize := hs.hsize
  have hvsize := hs.vsize
  have hwidth := hlies.width
  have hinside := hf.inside
  simp only [Region.right, Region.bottom] at hright hbottom hinside
  have hh : picture.window.hoffset + r.hoffset ≤ Word.maxUnsigned := by omega
  have hv : picture.window.voffset + r.voffset ≤ Word.maxUnsigned := by omega
  obtain ⟨habove, hcorner⟩ := hlies.corner_le hstride
  have hleft : p.desc.rowBytes (picture.window.hoffset + r.hoffset) s.macropixel ≤
      Word.maxUnsigned := by omega
  have hrow : p.desc.rowBytes r.hsize s.macropixel ≤ Word.maxUnsigned :=
    Nat.le_trans (Nat.le_trans (Nat.le_add_left _ _) hwidth) hstride
  simp only [Picture.span?, PlaneDesc.span?, PlaneDesc.byteOffset?, Word.checked_of_le hh,
    Word.checked_of_le hv, Word.checked_of_le habove, PlaneDesc.rowBytes?_of_le hleft,
    PlaneDesc.rowBytes?_of_le hrow, Word.checked_of_le hcorner, bind, Option.bind]
  rfl

end Storage.InWords

namespace Heap

def InWords (h : Heap) : Prop := ∀ i s, h.stored? i = some s → s.InWords

instance : Primitive fun h t => h.InWords → t.InWords where
  refl _ hw := hw
  trans ht hu hw := hu (ht hw)
  setPicture _ _ _ hw := hw
  setRefs _ i count hw := by
    intro j s hj
    rw [stored?_setRefs] at hj
    exact hw j s hj
  addPicture _ _ hw := hw
  write h i chroma start view hw := by
    intro j s hj
    rw [stored?_mapStorage] at hj
    split at hj
    · obtain ⟨s', hs', rfl⟩ := Option.map_eq_some_iff.mp hj
      exact (hw j s' hs').write chroma start view
    · exact hw j s hj
  withBlank h m hsize vsize hg hw := by
    intro j s hj
    unfold withBlank at hj
    rw [stored?_allocate] at hj
    split at hj
    · cases hj
      exact .of_grants hg
    · exact hw j s hj

theorem Reachable.inWords {makers : List Manager} {h : Heap} (hr : Reachable makers h) : h.InWords :=
  hr.invariant fun _ _ hi => nomatch hi

end Heap

end Planar
