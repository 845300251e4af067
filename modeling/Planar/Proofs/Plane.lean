import Planar.Proofs.Heap.Allocation
import Planar.Proofs.Region
import Planar.Proofs.View
set_option autoImplicit false

/-!
Planes by row and column. A region that a picture accepts lies in each plane as a block of whole
rows and columns, and what a kernel paints there is all that changes.
-/

namespace Planar

namespace PlaneDesc

variable {d : PlaneDesc} {macropixel : Nat}

def unit (d : PlaneDesc) (macropixel : Nat) : Nat := max d.hsub 1 * max macropixel 1

theorem unit_pos (d : PlaneDesc) (macropixel : Nat) : 0 < d.unit macropixel :=
  Nat.mul_pos (by omega) (by omega)

theorem rowBytes_eq (d : PlaneDesc) (hsize macropixel : Nat) :
    d.rowBytes hsize macropixel = hsize / d.unit macropixel * d.macropixelSize := by
  rw [rowBytes, unit, Nat.div_div_eq_div_mul]

/-- The division loses nothing if the parts that it drops do not add up to a sample. -/
theorem rowBytes_add_iff (hs : 0 < d.macropixelSize) (a b : Nat) :
    d.rowBytes (a + b) macropixel = d.rowBytes a macropixel + d.rowBytes b macropixel ↔
      a % d.unit macropixel + b % d.unit macropixel < d.unit macropixel := by
  simp only [rowBytes_eq]
  rw [Nat.add_div (d.unit_pos macropixel), ← Nat.add_mul, Nat.mul_left_inj (by omega)]
  split <;> omega

theorem rowBytes_add_le (a b : Nat) :
    d.rowBytes a macropixel + d.rowBytes b macropixel ≤ d.rowBytes (a + b) macropixel := by
  simp only [rowBytes_eq]
  rw [← Nat.add_mul]
  exact Nat.mul_le_mul_right _ Nat.div_add_div_le_add_div

theorem rowBytes_mono {a b : Nat} (h : a ≤ b) :
    d.rowBytes a macropixel ≤ d.rowBytes b macropixel := by
  simp only [rowBytes_eq]
  exact Nat.mul_le_mul_right _ (Nat.div_le_div_right h)

theorem rows_add {a : Nat} (h : max d.vsub 1 ∣ a) (b : Nat) :
    d.rows (a + b) = d.rows a + d.rows b := by
  obtain ⟨k, rfl⟩ := h
  have hp : 0 < max d.vsub 1 := by omega
  rw [rows, rows, rows, Nat.mul_add_div hp, Nat.mul_div_cancel_left _ hp]

theorem rows_add_le (a b : Nat) : d.rows a + d.rows b ≤ d.rows (a + b) :=
  Nat.div_add_div_le_add_div

theorem rows_mono {a b : Nat} (h : a ≤ b) : d.rows a ≤ d.rows b := Nat.div_le_div_right h

end PlaneDesc

def PlaneStore.byte (p : PlaneStore) (y c : Nat) : UInt8 := p.data.byte (y * p.desc.stride + c)

/-- A span is a block of the plane with its corner there. -/
structure Span.Lies (span : Span) (p : PlaneStore) (top left : Nat) : Prop where
  stride : span.stride = p.desc.stride
  offset : span.offset = top * p.desc.stride + left
  width : left + span.rowBytes ≤ p.desc.stride
  height : (top + span.rows) * p.desc.stride ≤ p.data.size
  bounded : p.data.size ≤ Word.maxSigned

namespace Span

variable {span : Span} {p : PlaneStore} {top left : Nat}

theorem Lies.regular (hl : span.Lies p top left) (hb : 0 < span.rowBytes) :
    span.toShape.Regular where
  rowBytes_pos := hb
  covers := by
    have := hl.width
    have := hl.stride
    omega
  bounded := by
    have hw : Word.maxSigned ≤ Word.maxUnsigned := by decide
    have hh := hl.height
    have hbounded := hl.bounded
    rw [Nat.add_mul] at hh
    rw [hl.stride]
    omega

theorem Lies.stop_le (hl : span.Lies p top left) (hne : span.len ≠ 0) :
    span.offset + span.len ≤ p.data.size := by
  have hpos : 0 < span.rows ∧ 0 < span.rowBytes := by
    unfold Shape.len at hne
    split at hne <;> omega
  have hh := hl.height
  have hw := hl.width
  obtain ⟨n, hn⟩ : ∃ n, span.rows = n + 1 := ⟨span.rows - 1, by omega⟩
  rw [(hl.regular hpos.2).len hpos.1, hl.offset, hl.stride, hn, Nat.add_sub_cancel]
  rw [hn, Nat.add_mul, Nat.succ_mul] at hh
  omega

theorem Lies.view (hl : span.Lies p top left) :
    ∃ v, Picture.view p span = .ok v ∧ v.shape = span.toShape ∧
      ∀ i, i < span.len → v.data.byte i = p.data.byte (span.offset + i) := by
  have hstride : ¬ (span.rows > 1 ∧ span.stride < span.rowBytes) := by
    have := hl.width
    have := hl.stride
    omega
  have hbytes : ∃ bytes, Picture.slice p span = .ok bytes ∧ span.len ≤ bytes.size ∧
      ∀ i, i < span.len → bytes.byte i = p.data.byte (span.offset + i) := by
    unfold Picture.slice isEmpty
    by_cases he : span.len = 0
    · exact ⟨#[], by simp [he], by simp [he], by omega⟩
    · have hw : Word.maxSigned ≤ Word.maxUnsigned := by decide
      have hstop := hl.stop_le he
      have hbounded := hl.bounded
      have hrange : span.range? = some (span.offset, span.offset + span.len) := by
        unfold range?
        rw [if_pos (by omega)]
      refine ⟨p.data.window span.offset span.len, ?_, ?_, fun i hi => ?_⟩
      · rw [if_neg (by simpa using he), hrange]
        simp only
        rw [if_pos hstop, Nat.add_sub_cancel_left]
      · exact Nat.le_of_eq (Bytes.size_window p.data hstop).symm
      · rw [Bytes.byte_window, if_pos hi]
  obtain ⟨bytes, hslice, hsize, hsame⟩ := hbytes
  have hlen : ¬ bytes.size < span.toShape.len := Nat.not_lt.mpr hsize
  refine ⟨⟨span.toShape, bytes.window 0 span.toShape.len, Bytes.size_window _ (by omega)⟩,
    ?_, rfl, fun i hi => ?_⟩
  · unfold Picture.view View.ofBytes
    rw [hslice]
    simp only [bind, Except.bind]
    rw [if_neg hstride, dif_neg hlen]
  · rw [Bytes.byte_window, if_pos hi, Nat.zero_add, hsame i hi]

theorem Lies.byte_view {v : View} (hl : span.Lies p top left) (hs : v.shape = span.toShape)
    (hv : ∀ i, i < span.len → v.data.byte i = p.data.byte (span.offset + i)) {y c : Nat}
    (hy : y < span.rows) (hc : c < span.rowBytes) : v.byte y c = p.byte (top + y) (left + c) := by
  have hin := (hl.regular (by omega)).row_le_len hy
  unfold View.byte PlaneStore.byte
  rw [hs, hv _ (by omega), hl.offset, hl.stride, Nat.add_mul]
  congr 1
  omega

theorem Lies.byte_painted {v w : View} {f : Nat → Nat → UInt8} (hl : span.Lies p top left)
    (hs : v.shape = span.toShape)
    (hv : ∀ i, i < span.len → v.data.byte i = p.data.byte (span.offset + i))
    (hp : View.Painted span.rows f v w) {k j : Nat} (hj : j < p.desc.stride)
    (hin : k * p.desc.stride + j < span.len) :
    w.data.byte (k * p.desc.stride + j) =
      if k < span.rows ∧ j < span.rowBytes then f k j
      else p.data.byte (span.offset + (k * p.desc.stride + j)) := by
  have hpaint := hp.byte k j (by rw [hs, hl.stride]; exact hj)
  rw [View.byte, View.byte, hp.shape, hs, hl.stride] at hpaint
  rw [hpaint, hv _ hin]

theorem Lies.index (hl : span.Lies p top left) (k j : Nat) :
    (top + k) * p.desc.stride + (left + j) = span.offset + (k * p.desc.stride + j) := by
  rw [hl.offset, Nat.add_mul]
  omega

theorem Lies.index_before (hl : span.Lies p top left) (k c : Nat) :
    (top + k + 1) * p.desc.stride + c =
      span.offset + (k * p.desc.stride + (p.desc.stride + c - left)) := by
  have hwidth := hl.width
  rw [hl.offset, Nat.add_mul, Nat.add_mul]
  omega

theorem Lies.exists_row (hl : span.Lies p top left) {y c : Nat} (hc : c < p.desc.stride)
    (h : span.offset ≤ y * p.desc.stride + c) :
    (∃ k j, y = top + k ∧ c = left + j) ∨ ∃ k, y = top + k + 1 ∧ c < left := by
  have hoffset := hl.offset
  have htop : top ≤ y := by
    refine Nat.not_lt.mp fun hlt => ?_
    have := Nat.mul_le_mul_right p.desc.stride (Nat.succ_le_of_lt hlt)
    rw [Nat.succ_mul] at this
    omega
  by_cases hleft : left ≤ c
  · obtain ⟨k, rfl⟩ := Nat.exists_eq_add_of_le htop
    obtain ⟨j, rfl⟩ := Nat.exists_eq_add_of_le hleft
    exact .inl ⟨k, j, rfl, rfl⟩
  · have hne : y ≠ top := by
      intro heq
      subst heq
      omega
    obtain ⟨k, rfl⟩ := Nat.exists_eq_add_of_lt (show top < y by omega)
    exact .inr ⟨k, rfl, by omega⟩

/-- What is painted on a view comes to the block that it was taken from. -/
theorem Lies.byte_putBack {v w : View} {f : Nat → Nat → UInt8} (hl : span.Lies p top left)
    (hs : v.shape = span.toShape)
    (hv : ∀ i, i < span.len → v.data.byte i = p.data.byte (span.offset + i))
    (hp : View.Painted span.rows f v w) {y c : Nat} (hc : c < p.desc.stride) :
    ({ p with data := w.putBack p.data span.offset } : PlaneStore).byte y c =
      if top ≤ y ∧ y < top + span.rows ∧ left ≤ c ∧ c < left + span.rowBytes then
        f (y - top) (c - left)
      else p.byte y c := by
  have hwidth := hl.width
  have hlen : w.data.size = span.len := by rw [w.size_data, hp.shape, hs]
  unfold PlaneStore.byte View.putBack
  simp only
  rw [Bytes.byte_put, Array.length_toList, hlen, Array.getElem?_toList]
  split
  · rename_i hin
    have hbyte : w.data[y * p.desc.stride + c - span.offset]?.getD 0 =
        w.data.byte (y * p.desc.stride + c - span.offset) := rfl
    rw [hbyte]
    obtain ⟨k, j, rfl, rfl⟩ | ⟨k, rfl, hleft⟩ := hl.exists_row hc hin.1
    · rw [hl.index] at hin ⊢
      rw [Nat.add_sub_cancel_left, hl.byte_painted hs hv hp (by omega) (by omega)]
      by_cases hblock : k < span.rows ∧ j < span.rowBytes
      · rw [if_pos hblock, if_pos (by omega), Nat.add_sub_cancel_left, Nat.add_sub_cancel_left]
      · rw [if_neg hblock, if_neg (by omega)]
    · rw [hl.index_before] at hin ⊢
      rw [Nat.add_sub_cancel_left, hl.byte_painted hs hv hp (by omega) (by omega),
        if_neg (by omega), if_neg (by omega)]
  · rename_i hout
    rw [if_neg]
    intro hgiven
    obtain ⟨htop, hrows, hleft, hcols⟩ := hgiven
    obtain ⟨k, rfl⟩ := Nat.exists_eq_add_of_le htop
    obtain ⟨j, rfl⟩ := Nat.exists_eq_add_of_le hleft
    have hin := (hl.regular (by omega)).row_le_len (y := k) (by omega)
    have hstop := hl.stop_le (by omega)
    rw [hl.stride] at hin
    rw [hl.index] at hout
    omega

end Span

/-! ### Regions of a picture -/

namespace Picture

variable {picture : Picture} {s : Storage} {p : PlaneStore} {chroma : String} {r : Region}

def absolute (picture : Picture) (r : Region) : Region :=
  ⟨picture.window.hoffset + r.hoffset, picture.window.voffset + r.voffset, r.hsize, r.vsize⟩

structure Fits (picture : Picture) (s : Storage) (p : PlaneStore) : Prop where
  inside : picture.window.right ≤ s.hsize ∧ picture.window.bottom ≤ s.vsize
  roomy : p.Roomy s.hsize s.vsize s.macropixel
  factors : 0 < p.desc.hsub ∧ 0 < p.desc.vsub ∧ 0 < p.desc.macropixelSize

theorem locate_of_fits (hp : s.plane? chroma = some p)
    (hright : r.right ≤ picture.window.hsize) (hbottom : r.bottom ≤ picture.window.vsize)
    (hf : picture.Fits s p) (hr : r.OnSamples p.desc.hsub p.desc.vsub) :
    picture.locate s chroma r = .ok (p, p.desc.span (picture.absolute r) s.macropixel) := by
  have hfits : r.fits (picture.visible s) = true := Region.fits_iff.mpr ⟨hright, hbottom⟩
  unfold locate
  rw [hp]
  simp only [hfits]
  rw [(Region.checkPlane_eq_ok (u := ()) hf.factors.1 hf.factors.2.1).mpr hr]
  rfl

theorem Fits.lies (hf : picture.Fits s p) (hright : r.right ≤ picture.window.hsize)
    (hbottom : r.bottom ≤ picture.window.vsize) :
    (p.desc.span (picture.absolute r) s.macropixel).Lies p
      (p.desc.rows (picture.window.voffset + r.voffset))
      (p.desc.rowBytes (picture.window.hoffset + r.hoffset) s.macropixel) := by
  obtain ⟨⟨hwr, hwb⟩, ⟨hsize, hcovers, hbounded⟩, -⟩ := hf
  simp only [Region.right, Region.bottom] at hright hbottom hwr hwb
  refine ⟨rfl, rfl, ?_, ?_, hbounded⟩
  · have hin : picture.window.hoffset + r.hoffset + r.hsize ≤ s.hsize := by omega
    exact Nat.le_trans (PlaneDesc.rowBytes_add_le _ _)
      (Nat.le_trans (PlaneDesc.rowBytes_mono hin) hcovers)
  · have hadd := p.desc.rows_add_le (picture.window.voffset + r.voffset) r.vsize
    have hmono := p.desc.rows_mono
      (show picture.window.voffset + r.voffset + r.vsize ≤ s.vsize by omega)
    rw [hsize, Nat.mul_comm p.desc.stride]
    exact Nat.mul_le_mul_right _ (Nat.le_trans hadd hmono)

end Picture

end Planar
