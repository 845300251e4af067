import Planar.Proofs.Heap.Margins
set_option autoImplicit false

/-!
Regions as sets of pixels. A sample of a plane stands for many pixels, but its last one lies in every
region that has the sample, so regions without a common pixel have no byte in common in any plane.
-/

namespace Planar

theorem Grid.last_of_sample {unit start count k : Nat} (hu : 0 < unit) (hl : start / unit ≤ k)
    (hr : k < start / unit + count / unit) :
    start ≤ (k + 1) * unit - 1 ∧ (k + 1) * unit - 1 < start + count := by
  have hafter : start < (k + 1) * unit := (Nat.div_lt_iff_lt_mul hu).mp (by omega)
  have hparts : start / unit + count / unit ≤ (start + count) / unit := Nat.div_add_div_le_add_div
  have hbefore : (k + 1) * unit ≤ start + count := (Nat.le_div_iff_mul_le hu).mp (by omega)
  omega

namespace Region

def Contains (r : Region) (x y : Nat) : Prop :=
  (r.hoffset ≤ x ∧ x < r.right) ∧ r.voffset ≤ y ∧ y < r.bottom

def Disjoint (r q : Region) : Prop := ∀ x y, r.Contains x y → ¬ q.Contains x y

theorem contains_of_byte {d : PlaneDesc} {macropixel y c : Nat} {r : Region}
    (hs : 0 < d.macropixelSize)
    (hy : d.rows r.voffset ≤ y ∧ y < d.rows r.voffset + d.rows r.vsize)
    (hc : d.rowBytes r.hoffset macropixel ≤ c ∧
      c < d.rowBytes r.hoffset macropixel + d.rowBytes r.hsize macropixel) :
    r.Contains ((c / d.macropixelSize + 1) * d.unit macropixel - 1) ((y + 1) * max d.vsub 1 - 1) := by
  simp only [PlaneDesc.rowBytes_eq, ← Nat.add_mul] at hc
  have hleft := (Nat.le_div_iff_mul_le hs).mpr hc.1
  have hright := (Nat.div_lt_iff_lt_mul hs).mpr hc.2
  exact ⟨Grid.last_of_sample (d.unit_pos macropixel) hleft hright,
    Grid.last_of_sample (by omega) hy.1 hy.2⟩

end Region

namespace Span

variable {span : Span} {p : PlaneStore} {top left y c : Nat}

theorem Lies.covers_iff (hl : span.Lies p top left) (hc : c < p.desc.stride) :
    span.Covers (y * p.desc.stride + c) ↔
      (top ≤ y ∧ y < top + span.rows) ∧ left ≤ c ∧ c < left + span.rowBytes := by
  have hwidth := hl.width
  constructor
  · intro hcovers
    obtain ⟨k, hk, hfirst, hlast⟩ := hcovers
    have hindex := hl.index k 0
    rw [hl.stride] at hfirst hlast
    rw [Nat.add_zero, Nat.add_zero] at hindex
    have hrow : y = top + k ∧ c < left + span.rowBytes :=
      (mem_row hc hwidth).mp ⟨by omega, by omega⟩
    obtain ⟨rfl, hright⟩ := hrow
    omega
  · intro hblock
    obtain ⟨k, rfl⟩ := Nat.exists_eq_add_of_le hblock.1.1
    obtain ⟨j, rfl⟩ := Nat.exists_eq_add_of_le hblock.2.1
    have hindex := hl.index k j
    rw [Covers, hl.stride]
    exact ⟨k, by omega, by omega, by omega⟩

/-- A byte of one region is not covered by another one that has no pixel of it. -/
theorem not_covers_of_disjoint {macropixel : Nat} {r q : Region} {top' left' : Nat}
    (hr : (p.desc.span r macropixel).Lies p top left) (hq : (p.desc.span q macropixel).Lies p top' left')
    (hcorner : top = p.desc.rows r.voffset ∧ left = p.desc.rowBytes r.hoffset macropixel)
    (hcorner' : top' = p.desc.rows q.voffset ∧ left' = p.desc.rowBytes q.hoffset macropixel)
    (hs : 0 < p.desc.macropixelSize) (hd : r.Disjoint q) (hy : y < p.desc.rows r.vsize)
    (hc : c < p.desc.rowBytes r.hsize macropixel) :
    ¬ (p.desc.span q macropixel).Covers ((top + y) * p.desc.stride + (left + c)) := by
  obtain ⟨rfl, rfl⟩ := hcorner
  obtain ⟨rfl, rfl⟩ := hcorner'
  have hwidth : p.desc.rowBytes r.hoffset macropixel + p.desc.rowBytes r.hsize macropixel ≤
      p.desc.stride := hr.width
  rw [hq.covers_iff (by omega)]
  intro hcovers
  obtain ⟨hrow, hcol⟩ := hcovers
  exact hd _ _ (Region.contains_of_byte hs ⟨by omega, by omega⟩ ⟨by omega, by omega⟩)
    (Region.contains_of_byte hs hrow hcol)

end Span

namespace Storage

/-- The same storage but for bytes in the rows of a region of some planes. -/
structure SameBut (s s' : Storage) (chromas : List String) (r : Region) : Prop where
  around : s.SameAround s' r
  elsewhere : ∀ chroma, chroma ∉ chromas → s'.plane? chroma = s.plane? chroma

variable {s s' s₁ : Storage} {chromas chromas' : List String} {r : Region}

theorem SameBut.refl (s : Storage) (chromas : List String) (r : Region) : s.SameBut s chromas r :=
  ⟨.refl s r, fun _ _ => rfl⟩

theorem SameBut.trans (h : s.SameBut s₁ chromas r) (h' : s₁.SameBut s' chromas' r) :
    s.SameBut s' (chromas ++ chromas') r where
  around := h.around.trans h'.around
  elsewhere := by
    intro chroma hc
    rw [List.mem_append, not_or] at hc
    exact (h'.elsewhere chroma hc.2).trans (h.elsewhere chroma hc.1)

end Storage

theorem Mapping.sameBut {picture : Picture} {s : Storage} {chroma : String} {r : Region}
    {plane : PlaneStore} {v w : View} {inner : Nat → Nat → UInt8}
    (hm : Mapping picture s chroma r plane v) (hp : View.Painted v.shape.rows inner v w) :
    s.SameBut (s.write chroma (picture.span s plane r).offset w) [chroma] (picture.absolute r) where
  around := hm.sameAround hp
  elsewhere _ ho := Storage.find?_writePlane_ne fun heq => ho (List.mem_singleton.mpr heq)

end Planar
