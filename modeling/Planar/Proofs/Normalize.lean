import Mathlib.Algebra.GroupWithZero.Nat
import Mathlib.Algebra.Ring.Int.Defs
import Planar.Proofs.Region
import Planar.Scripted
set_option autoImplicit false

/-!
Which raw regions pass for a plane, told by the stretch that they mean on each axis. The values are
compared with the picture before negative offsets and sizes to the end are resolved; that comparison
refuses no region inside the picture, and the one after it lets none outside through.
-/

namespace Planar

def Word.IsSigned (i : Int) : Prop := minSigned ≤ i ∧ i ≤ maxSigned

namespace RawRegion

/-- On one axis, a raw offset and a raw size mean a stretch that lies in the total. -/
structure Lands (offset size total : Int) : Prop where
  start_nonneg : 0 ≤ start offset total
  start_le : start offset total ≤ total
  extent_nonneg : 0 ≤ extent size (start offset total) total
  extent_le : extent size (start offset total) total ≤ total - start offset total

/-- What a plane asks of a raw region: it lies in the picture, its columns go along macropixels and
samples, and its lines along samples. -/
structure Legal (raw : RawRegion) (size : Size) (desc : PlaneDesc) : Prop where
  columns : Lands raw.hoffset raw.hsize size.hsize
  lines : Lands raw.voffset raw.vsize size.vsize
  hoffset : (Nat.lcm size.macropixel desc.hsub : Int) ∣ start raw.hoffset size.hsize
  hsize : (Nat.lcm size.macropixel desc.hsub : Int) ∣
    extent raw.hsize (start raw.hoffset size.hsize) size.hsize
  voffset : (desc.vsub : Int) ∣ start raw.voffset size.vsize
  vsize : (desc.vsub : Int) ∣ extent raw.vsize (start raw.voffset size.vsize) size.vsize

structure Means (raw : RawRegion) (size : Size) (r : Region) : Prop where
  hoffset : (r.hoffset : Int) = start raw.hoffset size.hsize
  voffset : (r.voffset : Int) = start raw.voffset size.vsize
  hsize : (r.hsize : Int) = extent raw.hsize (start raw.hoffset size.hsize) size.hsize
  vsize : (r.vsize : Int) = extent raw.vsize (start raw.voffset size.vsize) size.vsize

/-- The sums of one axis that are taken unchecked, each as far as it is reached. -/
structure SumsSigned (offset size total : Int) : Prop where
  start : Word.IsSigned (start offset total)
  rest : 0 ≤ RawRegion.start offset total → Word.IsSigned (total - RawRegion.start offset total)
  stop : 0 ≤ RawRegion.start offset total → 0 ≤ extent size (RawRegion.start offset total) total →
    Word.IsSigned (RawRegion.start offset total + extent size (RawRegion.start offset total) total)

section

variable {offset size total : Int}

theorem lands_iff {total : Nat} : Lands offset size total ↔ ∃ o e : Nat,
    (o : Int) = start offset total ∧ (e : Int) = extent size (start offset total) total ∧
      o + e ≤ total := by
  constructor
  · rintro ⟨hstart, hle, hextent, hfits⟩
    obtain ⟨o, ho⟩ := Int.eq_ofNat_of_zero_le hstart
    obtain ⟨e, he⟩ := Int.eq_ofNat_of_zero_le hextent
    exact ⟨o, e, ho.symm, he.symm, by omega⟩
  · rintro ⟨o, e, ho, he, hfits⟩
    rw [← ho] at he
    refine ⟨?_, ?_, ?_, ?_⟩
    · omega
    · omega
    · rw [← ho, ← he]
      omega
    · rw [← ho, ← he]
      omega

theorem Lands.exceeds_eq_false (h : Lands offset size total) (ht : total ≤ Word.maxSigned) :
    exceeds offset size total = false := by
  -- a stretch inside may begin with an offset as low as the opposite of the total, and a size to the
  -- end takes one more off, which the least signed word still holds
  have hmin : Word.minSigned = -Word.maxSigned - 1 := by decide
  obtain ⟨hstart, hle, hextent, hfits⟩ := h
  simp only [RawRegion.start, extent, toEnd] at hstart hle hextent hfits
  rw [RawRegion.exceeds_eq_false]
  omega

theorem sumsSigned_of_exceeds (hoffset : Word.IsSigned offset) (ht : 0 ≤ total ∧ total < 2 ^ 62)
    (hw : exceeds offset size total = false) : SumsSigned offset size total := by
  -- a negative offset lets a size up to twice the total through the first comparison
  have hmin : Word.minSigned = -2 ^ 63 := by decide
  have hmax : (Word.maxSigned : Int) = 2 ^ 63 - 1 := by decide
  rw [RawRegion.exceeds_eq_false] at hw
  unfold Word.IsSigned at hoffset
  rw [hmin, hmax] at hoffset
  constructor
  · unfold Word.IsSigned RawRegion.start
    omega
  · intro hstart
    unfold Word.IsSigned
    unfold RawRegion.start at hstart ⊢
    omega
  · intro hstart hextent
    unfold Word.IsSigned
    unfold extent toEnd RawRegion.start at hextent ⊢
    unfold RawRegion.start at hstart
    omega

end

section

variable {raw : RawRegion} {size : Size} {desc : PlaneDesc} {r : Region}

theorem ResolvesTo.means (h : raw.ResolvesTo size r) : raw.Means size r :=
  ⟨h.hoffset, h.voffset, h.hsize, h.vsize⟩

theorem ResolvesTo.legal (h : raw.ResolvesTo size r) (hm : 0 < size.macropixel)
    (hr : r.OnSamples desc.hsub desc.vsub) : raw.Legal size desc := by
  have hgo := h.accepted.hoffset
  have hgs := h.accepted.hsize
  rw [Nat.max_eq_left hm] at hgo hgs
  refine ⟨lands_iff.mpr ⟨_, _, h.hoffset, h.hsize, h.accepted.right⟩,
    lands_iff.mpr ⟨_, _, h.voffset, h.vsize, h.accepted.bottom⟩, ?_, ?_, ?_, ?_⟩
  · rw [← h.hoffset]
    exact Int.natCast_dvd_natCast.mpr (Nat.lcm_dvd hgo hr.hoffset)
  · rw [← h.hsize]
    exact Int.natCast_dvd_natCast.mpr (Nat.lcm_dvd hgs hr.hsize)
  · rw [← h.voffset]
    exact Int.natCast_dvd_natCast.mpr hr.voffset
  · rw [← h.vsize]
    exact Int.natCast_dvd_natCast.mpr hr.vsize

theorem Legal.exists_resolvesTo (h : raw.Legal size desc) (hm : 0 < size.macropixel)
    (hs : size.hsize ≤ Word.maxSigned ∧ size.vsize ≤ Word.maxSigned) :
    ∃ r, raw.ResolvesTo size r ∧ r.OnSamples desc.hsub desc.vsub := by
  obtain ⟨hoffset, hsize, hho, hhs, hright⟩ := lands_iff.mp h.columns
  obtain ⟨voffset, vsize, hvo, hvs, hbottom⟩ := lands_iff.mp h.lines
  have hgo := h.hoffset
  have hgs := h.hsize
  have hvgo := h.voffset
  have hvgs := h.vsize
  rw [← hho, Int.natCast_dvd_natCast, Nat.lcm_dvd_iff] at hgo
  rw [← hhs, Int.natCast_dvd_natCast, Nat.lcm_dvd_iff] at hgs
  rw [← hvo, Int.natCast_dvd_natCast] at hvgo
  rw [← hvs, Int.natCast_dvd_natCast] at hvgs
  have hwithin : exceeds raw.hoffset raw.hsize size.hsize = false ∧
      exceeds raw.voffset raw.vsize size.vsize = false :=
    ⟨h.columns.exceeds_eq_false (by omega), h.lines.exceeds_eq_false (by omega)⟩
  refine ⟨⟨hoffset, voffset, hsize, vsize⟩, ⟨hho, hvo, hhs, hvs, hwithin, hright, hbottom, hs, ?_, ?_⟩,
    ⟨hgo.2, hgs.2, hvgo, hvgs⟩⟩
  · rw [Nat.max_eq_left hm]
    exact hgo.1
  · rw [Nat.max_eq_left hm]
    exact hgs.1

end

end RawRegion

/-- A raw region passes exactly if it means a stretch of the picture on both axes, the plane is there
with no zero factor, and both stretches go along the plane's grid. The region is then what was meant, and
written out again it passes as itself. Below 2⁶² no sum on the way leaves the signed words. -/
theorem normalizes_iff_legal {σ β : Type} [Buffers σ β] {b : β} {s : σ} {size : Size}
    (hsize : Buffers.size b s = .ok size) (hsmall : size.hsize < 2 ^ 62 ∧ size.vsize < 2 ^ 62)
    (chroma : String) (raw : RawRegion) :
    ((∃ r, normalizeRegion b chroma raw s = .ok r) ↔ ∃ desc, Buffers.planeDesc b chroma s = .ok desc ∧
        desc.Divides size.macropixel ∧ raw.Legal size desc) ∧
      (∀ r, normalizeRegion b chroma raw s = .ok r → raw.Means size r ∧ r.fits size = true ∧
        normalizeRegion b chroma (.ofRegion r) s = .ok r) ∧
      (Word.IsSigned raw.hoffset → Word.IsSigned raw.voffset →
        RawRegion.exceeds raw.hoffset raw.hsize size.hsize = false →
          RawRegion.exceeds raw.voffset raw.vsize size.vsize = false →
            RawRegion.SumsSigned raw.hoffset raw.hsize size.hsize ∧
              RawRegion.SumsSigned raw.voffset raw.vsize size.vsize) := by
  have hmax : Word.maxSigned = 2 ^ 63 - 1 := by decide
  refine ⟨?_, ?_, ?_⟩
  · constructor
    · rintro ⟨r, hr⟩
      obtain ⟨desc, hdesc, hd, hmeant, hs⟩ := (normalizeRegion_iff hsize).mp hr
      exact ⟨desc, hdesc, hd, hmeant.legal hd.macropixel hs⟩
    · rintro ⟨desc, hdesc, hd, hlegal⟩
      obtain ⟨r, hmeant, hs⟩ := hlegal.exists_resolvesTo hd.macropixel (by omega)
      exact ⟨r, (normalizeRegion_iff hsize).mpr ⟨desc, hdesc, hd, hmeant, hs⟩⟩
  · intro r hr
    obtain ⟨desc, hdesc, hd, hmeant, hs⟩ := (normalizeRegion_iff hsize).mp hr
    have hagain := RawRegion.resolve_eq_ok.mp (RawRegion.resolve_ofRegion hmeant.accepted)
    exact ⟨hmeant.means, Region.fits_iff.mpr ⟨hmeant.accepted.right, hmeant.accepted.bottom⟩,
      (normalizeRegion_iff hsize).mpr ⟨desc, hdesc, hd, hagain, hs⟩⟩
  · intro hh hv hwh hwv
    exact ⟨RawRegion.sumsSigned_of_exceeds hh (by omega) hwh,
      RawRegion.sumsSigned_of_exceeds hv (by omega) hwv⟩

def thirdsStage : Scripted.Stage :=
  ⟨#[], #[⟨"src", ⟨12, 8, 2⟩, 1, [⟨"u8", ⟨16, 3, 2, 1⟩, #[], none⟩], []⟩]⟩

theorem thirdsStage_normalizes :
    normalizeRegion (⟨0⟩ : Scripted.Handle) "u8" ⟨-6, -4, -1, 2⟩ thirdsStage = .ok ⟨6, 4, 6, 2⟩ ∧
      ¬ ∃ r, normalizeRegion (⟨0⟩ : Scripted.Handle) "u8" ⟨-4, -4, -1, 2⟩ thirdsStage = .ok r := by
  have hsize : Buffers.size (⟨0⟩ : Scripted.Handle) thirdsStage = .ok ⟨12, 8, 2⟩ := rfl
  have hdesc : Buffers.planeDesc (⟨0⟩ : Scripted.Handle) "u8" thirdsStage = .ok ⟨16, 3, 2, 1⟩ := by
    exact eq_ok_of_toOption (by decide +kernel)
  obtain ⟨hok, hmeans, -⟩ := normalizes_iff_legal hsize (by decide) "u8" ⟨-6, -4, -1, 2⟩
  obtain ⟨hok', -, -⟩ := normalizes_iff_legal hsize (by decide) "u8" ⟨-4, -4, -1, 2⟩
  constructor
  · have hlegal : RawRegion.Legal ⟨-6, -4, -1, 2⟩ ⟨12, 8, 2⟩ ⟨16, 3, 2, 1⟩ := by
      refine ⟨by constructor <;> decide, by constructor <;> decide, ?_, ?_, ?_, ?_⟩ <;> decide
    obtain ⟨r, hr⟩ := hok.mpr ⟨_, hdesc, by constructor <;> decide, hlegal⟩
    obtain ⟨hm, -, -⟩ := hmeans r hr
    obtain ⟨hoffset, voffset, hsize, vsize⟩ := r
    have hho := hm.hoffset
    have hvo := hm.voffset
    have hhs := hm.hsize
    have hvs := hm.vsize
    simp only [RawRegion.start, RawRegion.extent, toEnd] at hho hvo hhs hvs
    rw [hr]
    simp only [Except.ok.injEq, Region.mk.injEq]
    omega
  · rw [hok']
    rintro ⟨desc, hd, -, hlegal⟩
    cases hdesc.symm.trans hd
    exact absurd hlegal.hoffset (by decide)

end Planar
