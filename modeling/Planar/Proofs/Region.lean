import Planar.Proofs.Operation
set_option autoImplicit false

/-!
Regions that a picture accepts. Resolving is a projection onto them: what it gives is accepted,
and an accepted region, written out again, resolves to itself.
-/

namespace Planar

/-- A region inside a picture whose columns go along the macropixels. -/
structure Region.Accepted (r : Region) (size : Size) : Prop where
  right : r.right ≤ size.hsize
  bottom : r.bottom ≤ size.vsize
  signed : size.hsize ≤ Word.maxSigned ∧ size.vsize ≤ Word.maxSigned
  hoffset : max size.macropixel 1 ∣ r.hoffset
  hsize : max size.macropixel 1 ∣ r.hsize

structure Region.Signed (r : Region) : Prop where
  hoffset : r.hoffset ≤ Word.maxSigned
  voffset : r.voffset ≤ Word.maxSigned
  hsize : r.hsize ≤ Word.maxSigned
  vsize : r.vsize ≤ Word.maxSigned

theorem Region.fits_iff {r : Region} {size : Size} :
    r.fits size = true ↔ r.right ≤ size.hsize ∧ r.bottom ≤ size.vsize := by
  simp [fits]

theorem Size.totals_eq_ok {size : Size} {total : Int × Int} :
    size.totals = .ok total ↔
      size.hsize ≤ Word.maxSigned ∧ size.vsize ≤ Word.maxSigned ∧
        total = ((size.hsize : Int), (size.vsize : Int)) := by
  unfold totals
  split
  · simp; omega
  · split
    · simp; omega
    · rename_i hh hv
      rw [Except.ok.injEq]
      exact ⟨fun h => ⟨by omega, by omega, h.symm⟩, fun h => h.2.2.symm⟩

theorem Size.totals_of_signed {size : Size} (h : size.hsize ≤ Word.maxSigned)
    (v : size.vsize ≤ Word.maxSigned) :
    size.totals = .ok ((size.hsize : Int), (size.vsize : Int)) :=
  totals_eq_ok.mpr ⟨h, v, rfl⟩

namespace RawRegion

theorem exceeds_eq_false {offset extent total : Int} :
    exceeds offset extent total = false ↔
      offset ≤ total ∧ offset + extent ≤ total ∧ Word.minSigned ≤ offset + extent := by
  simp [exceeds]
  omega

def start (offset total : Int) : Int := if offset < 0 then offset + total else offset

def extent (size start total : Int) : Int := if size = toEnd then total - start else size

theorem extent_natCast (n : Nat) (start total : Int) : extent n start total = n :=
  if_neg fun hend => nomatch hend

/-- The one region that a raw region can mean in a picture of that size. -/
structure ResolvesTo (raw : RawRegion) (size : Size) (r : Region) : Prop where
  hoffset : (r.hoffset : Int) = start raw.hoffset size.hsize
  voffset : (r.voffset : Int) = start raw.voffset size.vsize
  hsize : (r.hsize : Int) = extent raw.hsize (start raw.hoffset size.hsize) size.hsize
  vsize : (r.vsize : Int) = extent raw.vsize (start raw.voffset size.vsize) size.vsize
  within : exceeds raw.hoffset raw.hsize size.hsize = false ∧
    exceeds raw.voffset raw.vsize size.vsize = false
  accepted : r.Accepted size

theorem cast_mod_eq_zero {n g : Nat} : (n : Int) % (g : Int) = 0 ↔ g ∣ n := by
  rw [Nat.dvd_iff_mod_eq_zero]
  omega

theorem resolve_eq_ok {raw : RawRegion} {size : Size} {r : Region} :
    raw.resolve size = .ok r ↔ raw.ResolvesTo size r := by
  unfold resolve
  constructor
  · intro h
    obtain ⟨total, ht, h⟩ := Except.bind_eq_ok.mp h
    obtain ⟨hh, hv, rfl⟩ := Size.totals_eq_ok.mp ht
    simp only [check_eq_ok, pure, Except.pure, Except.ok.injEq, Bool.or_eq_true, decide_eq_true_eq,
      not_or, Bool.not_eq_true, Decidable.not_not] at h
    obtain ⟨hw, hn, hs, hin, hgo, hgs, rfl⟩ := h
    have hho := Int.toNat_of_nonneg (Int.not_lt.mp hn.1)
    have hhs := Int.toNat_of_nonneg (Int.not_lt.mp hs.1)
    have hvo := Int.toNat_of_nonneg (Int.not_lt.mp hn.2)
    have hvs := Int.toNat_of_nonneg (Int.not_lt.mp hs.2)
    refine ⟨hho, hvo, hhs, hvs, hw, ?_, ?_, ⟨hh, hv⟩, ?_, ?_⟩
    · simp only [Region.right]
      omega
    · simp only [Region.bottom]
      omega
    · rw [← cast_mod_eq_zero, hho]
      exact hgo
    · rw [← cast_mod_eq_zero, hhs]
      exact hgs
  · intro hgiven
    obtain ⟨hho, hvo, hhs, hvs, hw, hright, hbottom, ⟨hh, hv⟩, hgo, hgs⟩ := hgiven
    rw [Size.totals_of_signed hh hv]
    simp only [Region.right, Region.bottom] at hright hbottom
    simp only [Except.bind_eq_ok, check_eq_ok, pure, Except.pure, Except.ok.injEq, Bool.or_eq_true,
      decide_eq_true_eq, not_or, Bool.not_eq_true, Decidable.not_not]
    refine ⟨_, rfl, hw, ?_⟩
    change (¬ start raw.hoffset size.hsize < 0 ∧ ¬ start raw.voffset size.vsize < 0) ∧
      (¬ extent raw.hsize (start raw.hoffset size.hsize) size.hsize < 0 ∧
        ¬ extent raw.vsize (start raw.voffset size.vsize) size.vsize < 0) ∧
      (¬ start raw.hoffset size.hsize + extent raw.hsize (start raw.hoffset size.hsize) size.hsize >
          size.hsize ∧
        ¬ start raw.voffset size.vsize + extent raw.vsize (start raw.voffset size.vsize) size.vsize >
          size.vsize) ∧
      start raw.hoffset size.hsize % _ = 0 ∧
        extent raw.hsize (start raw.hoffset size.hsize) size.hsize % _ = 0 ∧
          (⟨(start raw.hoffset size.hsize).toNat, (start raw.voffset size.vsize).toNat,
            (extent raw.hsize (start raw.hoffset size.hsize) size.hsize).toNat,
            (extent raw.vsize (start raw.voffset size.vsize) size.vsize).toNat⟩ : Region) = r
    rw [← hhs, ← hvs, ← hho, ← hvo]
    exact ⟨by omega, by omega, by omega, cast_mod_eq_zero.mpr hgo, cast_mod_eq_zero.mpr hgs, rfl⟩

theorem accepted_of_resolve {raw : RawRegion} {size : Size} {r : Region}
    (h : raw.resolve size = .ok r) : r.Accepted size :=
  (resolve_eq_ok.mp h).accepted

theorem resolve_ofRegion {r : Region} {size : Size} (hr : r.Accepted size) :
    (ofRegion r).resolve size = .ok r := by
  have hright := hr.right
  have hbottom := hr.bottom
  have hsigned := hr.signed
  simp only [Region.right, Region.bottom] at hright hbottom
  have hmin : Word.minSigned ≤ 0 := by decide
  have hraw : ofRegion r = ⟨r.hoffset, r.voffset, r.hsize, r.vsize⟩ := by
    unfold ofRegion
    rw [Word.toSigned_of_le (by omega), Word.toSigned_of_le (by omega),
      Word.toSigned_of_le (by omega), Word.toSigned_of_le (by omega)]
  rw [resolve_eq_ok, hraw]
  refine ⟨?_, ?_, ?_, ?_, ⟨?_, ?_⟩, hr⟩
  · exact (if_neg (Int.not_lt.mpr (Int.natCast_nonneg _))).symm
  · exact (if_neg (Int.not_lt.mpr (Int.natCast_nonneg _))).symm
  · simp [extent, toEnd]
  · simp [extent, toEnd]
  · rw [exceeds_eq_false]
    simp only
    omega
  · rw [exceeds_eq_false]
    simp only
    omega

theorem eq_of_resolve_ofRegion {r r' : Region} {size : Size} (hr : r.Signed)
    (h : (ofRegion r).resolve size = .ok r') : r' = r := by
  have hraw : ofRegion r = ⟨r.hoffset, r.voffset, r.hsize, r.vsize⟩ := by
    unfold ofRegion
    rw [Word.toSigned_of_le hr.hoffset, Word.toSigned_of_le hr.voffset, Word.toSigned_of_le hr.hsize,
      Word.toSigned_of_le hr.vsize]
  have hres := resolve_eq_ok.mp h
  rw [hraw] at hres
  have hho := hres.hoffset
  have hvo := hres.voffset
  have hhs := hres.hsize
  have hvs := hres.vsize
  simp only [start, extent, toEnd] at hho hvo hhs hvs
  cases r'
  cases r
  simp only [Region.mk.injEq] at *
  omega

theorem resolve_full {size : Size} {r : Region} :
    full.resolve size = .ok r ↔ r = ⟨0, 0, size.hsize, size.vsize⟩ ∧
      (size.hsize ≤ Word.maxSigned ∧ size.vsize ≤ Word.maxSigned) ∧
        max size.macropixel 1 ∣ size.hsize := by
  have hmin : Word.minSigned ≤ -1 := by decide
  have hstart (n : Nat) : start 0 n = 0 := rfl
  have hextent (n : Nat) : extent toEnd 0 n = n := Int.sub_zero _
  rw [resolve_eq_ok]
  constructor
  · intro hr
    have hh := hr.hsize
    have hv := hr.vsize
    have hho := hr.hoffset
    have hvo := hr.voffset
    have hgrid := hr.accepted.hsize
    simp only [full, hstart, hextent] at hh hv hho hvo
    obtain rfl : r = ⟨0, 0, size.hsize, size.vsize⟩ := by
      cases r
      simp only [Region.mk.injEq] at *
      omega
    exact ⟨rfl, hr.accepted.signed, hgrid⟩
  · rintro ⟨rfl, hs, hgrid⟩
    refine ⟨rfl, rfl, (hextent _).symm, (hextent _).symm, ⟨?_, ?_⟩,
      ⟨?_, ?_, hs, Nat.dvd_zero _, hgrid⟩⟩
    · rw [exceeds_eq_false]
      simp only [full, toEnd]
      omega
    · rw [exceeds_eq_false]
      simp only [full, toEnd]
      omega
    · exact Nat.le_of_eq (Nat.zero_add _)
    · exact Nat.le_of_eq (Nat.zero_add _)

end RawRegion

/-- A region that cuts a plane between its samples, if the factors are not zero. -/
structure Region.OnSamples (r : Region) (hsub vsub : Nat) : Prop where
  hoffset : hsub ∣ r.hoffset
  hsize : hsub ∣ r.hsize
  voffset : vsub ∣ r.voffset
  vsize : vsub ∣ r.vsize

theorem Region.checkPlane_eq_ok {r : Region} {hsub vsub : Nat} {u : Unit} (hh : 0 < hsub)
    (hv : 0 < vsub) : r.checkPlane hsub vsub = .ok u ↔ r.OnSamples hsub vsub := by
  unfold checkPlane
  simp only [check_eq_ok, Nat.max_eq_left hh, Nat.max_eq_left hv, Decidable.not_not,
    ← Nat.dvd_iff_mod_eq_zero]
  simp only [throw, throwThe, MonadExceptOf.throw, pure, Except.pure, guard_eq_ok,
    Decidable.not_not, ← Nat.dvd_iff_mod_eq_zero]
  exact ⟨fun ⟨h₁, h₂, h₃, h₄⟩ => ⟨h₁, h₂, h₃, h₄⟩, fun ⟨h₁, h₂, h₃, h₄⟩ => ⟨h₁, h₂, h₃, h₄⟩⟩

structure PlaneDesc.Divides (d : PlaneDesc) (macropixel : Nat) : Prop where
  hsub : 0 < d.hsub
  vsub : 0 < d.vsub
  macropixelSize : 0 < d.macropixelSize
  macropixel : 0 < macropixel

theorem PlaneDesc.checkFactors_eq_ok {d : PlaneDesc} {chroma : String} {macropixel : Nat} {u : Unit} :
    d.checkFactors chroma macropixel = .ok u ↔ d.Divides macropixel := by
  unfold checkFactors
  rw [guard_eq_ok]
  exact ⟨fun h => ⟨by omega, by omega, by omega, by omega⟩, fun ⟨_, _, _, _⟩ => by omega⟩

theorem PlaneDesc.checkFactors_of_pos {d : PlaneDesc} {macropixel : Nat}
    (hd : 0 < d.hsub ∧ 0 < d.vsub ∧ 0 < d.macropixelSize) (hm : 0 < macropixel) (chroma : String) :
    d.checkFactors chroma macropixel = .ok () :=
  checkFactors_eq_ok.mpr ⟨hd.1, hd.2.1, hd.2.2, hm⟩

/-- Everything that a buffer is asked on the way, with what it has to answer. -/
theorem normalizeRegion_iff {σ β : Type} [Buffers σ β] {b : β} {s : σ} {size : Size} {chroma : String}
    {raw : RawRegion} {r : Region} (hsize : Buffers.size b s = .ok size) :
    normalizeRegion b chroma raw s = .ok r ↔ ∃ desc, Buffers.planeDesc b chroma s = .ok desc ∧
      desc.Divides size.macropixel ∧ raw.ResolvesTo size r ∧ r.OnSamples desc.hsub desc.vsub := by
  unfold normalizeRegion
  simp only [Except.bind_eq_ok, Stop.lift_eq_ok, hsize, RawRegion.resolve_eq_ok,
    PlaneDesc.checkFactors_eq_ok, pure, Except.pure, Except.ok.injEq]
  constructor
  · rintro ⟨_, rfl, _, hr, desc, hdesc, _, hd, _, hcheck, rfl⟩
    exact ⟨desc, hdesc, hd, hr, (Region.checkPlane_eq_ok hd.hsub hd.vsub).mp hcheck⟩
  · rintro ⟨desc, hdesc, hd, hr, hs⟩
    exact ⟨_, rfl, _, hr, desc, hdesc, (), hd, (),
      (Region.checkPlane_eq_ok hd.hsub hd.vsub).mpr hs, rfl⟩

end Planar
