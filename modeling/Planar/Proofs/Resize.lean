import Planar.Geometry.Resize
import Planar.Proofs.Grid
import Planar.Proofs.Region
set_option autoImplicit false

/-!
Requests that a picture accepts, and what the old and the new picture share. On each axis at most
one of the two shared corners is off the edge, and the corners differ by the skip.
-/

namespace Planar

/-- The one request that a raw resize can mean for a picture of that size. -/
structure RawResize.ResolvesTo (raw : RawResize) (size : Size) (q : ResizeRequest) : Prop where
  signed : size.hsize ≤ Word.maxSigned ∧ size.vsize ≤ Word.maxSigned
  before : q.size = size
  hskip : q.hskip = raw.hskip
  vskip : q.vskip = raw.vskip
  newHsize : (q.newHsize : Int) = RawRegion.extent raw.newHsize raw.hskip size.hsize
  newVsize : (q.newVsize : Int) = RawRegion.extent raw.newVsize raw.vskip size.vsize
  within : raw.hskip ≤ size.hsize ∧ raw.vskip ≤ size.vsize
  covers : Word.negate raw.hskip ≤ q.newHsize ∧ Word.negate raw.vskip ≤ q.newVsize
  macropixels : ((max size.macropixel 1 : Nat) : Int) ∣ raw.hskip
  macropixels' : max size.macropixel 1 ∣ q.newHsize

theorem RawResize.resolve_eq_ok {raw : RawResize} {size : Size} {q : ResizeRequest} :
    raw.resolve size = .ok q ↔ raw.ResolvesTo size q := by
  unfold resolve
  constructor
  · intro h
    obtain ⟨total, ht, h⟩ := Except.bind_eq_ok.mp h
    obtain ⟨hh, hv, rfl⟩ := Size.totals_eq_ok.mp ht
    simp only [check_eq_ok, pure, Except.pure, Except.ok.injEq, Bool.or_eq_true, decide_eq_true_eq,
      not_or, Decidable.not_not] at h
    obtain ⟨hw, hn, hc, hgs, hgn, rfl⟩ := h
    have hnh := Int.toNat_of_nonneg (Int.not_lt.mp hn.1)
    have hnv := Int.toNat_of_nonneg (Int.not_lt.mp hn.2)
    refine ⟨⟨hh, hv⟩, rfl, rfl, rfl, hnh, hnv, by omega, ⟨?_, ?_⟩, Int.dvd_of_emod_eq_zero hgs, ?_⟩
    · rw [hnh]
      exact Int.not_lt.mp hc.1
    · rw [hnv]
      exact Int.not_lt.mp hc.2
    · rw [← RawRegion.cast_mod_eq_zero, hnh]
      exact hgn
  · intro hgiven
    obtain ⟨⟨hh, hv⟩, hsize, hhs, hvs, hnh, hnv, hw, hc, hgs, hgn⟩ := hgiven
    obtain ⟨hskip, vskip, newHsize, newVsize, s⟩ := q
    simp only at hsize hhs hvs hnh hnv hc hgn
    subst hsize hhs hvs
    rw [Size.totals_of_signed hh hv]
    simp only [Except.bind_eq_ok, check_eq_ok, pure, Except.pure, Except.ok.injEq, Bool.or_eq_true,
      decide_eq_true_eq, not_or, Decidable.not_not]
    refine ⟨_, rfl, ?_⟩
    change (¬ raw.hskip > s.hsize ∧ ¬ raw.vskip > s.vsize) ∧
      (¬ RawRegion.extent raw.newHsize raw.hskip s.hsize < 0 ∧
        ¬ RawRegion.extent raw.newVsize raw.vskip s.vsize < 0) ∧
      (¬ RawRegion.extent raw.newHsize raw.hskip s.hsize < Word.negate raw.hskip ∧
        ¬ RawRegion.extent raw.newVsize raw.vskip s.vsize < Word.negate raw.vskip) ∧
      raw.hskip % _ = 0 ∧ RawRegion.extent raw.newHsize raw.hskip s.hsize % _ = 0 ∧
        (⟨raw.hskip, raw.vskip, (RawRegion.extent raw.newHsize raw.hskip s.hsize).toNat,
          (RawRegion.extent raw.newVsize raw.vskip s.vsize).toNat, s⟩ : ResizeRequest) = _
    rw [← hnh, ← hnv]
    exact ⟨by omega, by omega, by omega, Int.emod_eq_zero_of_dvd hgs,
      RawRegion.cast_mod_eq_zero.mpr hgn, rfl⟩

namespace ResizeRequest

/-! ### One axis -/

theorem origins_sub (skip : Int) : ((origins skip).2 : Int) - (origins skip).1 = skip := by
  unfold origins
  split
  · simp only
    omega
  · simp only
    omega

theorem origins_eq_zero (skip : Int) : (origins skip).1 = 0 ∨ (origins skip).2 = 0 := by
  unfold origins
  split <;> simp

theorem origins_le (skip : Int) : (origins skip).1 ≤ skip.natAbs ∧ (origins skip).2 ≤ skip.natAbs := by
  have hsub := origins_sub skip
  have hzero := origins_eq_zero skip
  omega

theorem dvd_origins {unit : Nat} {skip : Int} :
    unit ∣ (origins skip).1 ∧ unit ∣ (origins skip).2 ↔ (unit : Int) ∣ skip := by
  have hsub := origins_sub skip
  constructor
  · intro hgiven
    obtain ⟨hdst, hsrc⟩ := hgiven
    rw [← hsub]
    exact Int.dvd_sub (Int.natCast_dvd_natCast.mpr hsrc) (Int.natCast_dvd_natCast.mpr hdst)
  · intro h
    rw [← Int.natCast_dvd_natCast, ← Int.natCast_dvd_natCast]
    rcases origins_eq_zero skip with hz | hz
    · have hsrc : ((origins skip).2 : Int) = skip := by omega
      rw [hz, hsrc]
      exact ⟨Int.dvd_zero _, h⟩
    · have hdst : ((origins skip).1 : Int) = -skip := by omega
      rw [hz, hdst]
      exact ⟨Int.dvd_neg.mpr h, Int.dvd_zero _⟩

/-- What is shared on an axis, seen from the new picture: the places that the old one also has,
when all places are `scale` wide. -/
theorem shared_iff {dst src new total scale z : Nat} (ho : dst = 0 ∨ src = 0) (hz : z < new * scale) :
    (dst * scale ≤ z ∧ z < dst * scale + min (new - dst) (total - src) * scale) ↔
      (0 ≤ (z : Int) + (src * scale - dst * scale) ∧
        (z : Int) + (src * scale - dst * scale) < total * scale) := by
  rw [← Nat.mul_min_mul_right, Nat.sub_mul, Nat.sub_mul]
  rcases ho with rfl | rfl
  · simp only [Nat.zero_mul]
    omega
  · simp only [Nat.zero_mul]
    omega

theorem skip_div {unit : Nat} {skip : Int} (hk : (unit : Int) ∣ skip) :
    skip / unit = ((origins skip).2 / unit : Nat) - ((origins skip).1 / unit : Nat) :=
  Grid.div_sub_div (dvd_origins.mpr hk).1 (origins_sub skip)

theorem shared_units {unit scale new total z : Nat} {skip : Int} (hk : (unit : Int) ∣ skip)
    (hn : unit ∣ new) (ht : unit ∣ total) (hz : z < new / unit * scale) :
    ((origins skip).1 / unit * scale ≤ z ∧ z < (origins skip).1 / unit * scale +
        min (new - (origins skip).1) (total - (origins skip).2) / unit * scale) ↔
      0 ≤ (z : Int) + skip / unit * scale ∧
        (z : Int) + skip / unit * scale < (total / unit * scale : Nat) := by
  have hshared := dvd_origins.mpr hk
  have hzero : (origins skip).1 / unit = 0 ∨ (origins skip).2 / unit = 0 :=
    (origins_eq_zero skip).imp (fun h => by simp [h]) fun h => by simp [h]
  rw [Grid.min_sub_div hn hshared.1 ht hshared.2, shared_iff hzero hz, skip_div hk, Int.sub_mul]
  rfl

theorem shared_le_total {new total : Nat} {skip : Int} (hk : skip ≤ total) :
    (origins skip).2 + min (new - (origins skip).1) (total - (origins skip).2) ≤ total := by
  have hsub := origins_sub skip
  have hzero := origins_eq_zero skip
  omega

theorem shared_le_new {new total : Nat} {skip : Int} (hk : -skip ≤ new) :
    (origins skip).1 + min (new - (origins skip).1) (total - (origins skip).2) ≤ new := by
  have hsub := origins_sub skip
  have hzero := origins_eq_zero skip
  omega

theorem signed_overlap {q : ResizeRequest}
    (hsize : q.size.hsize ≤ Word.maxSigned ∧ q.size.vsize ≤ Word.maxSigned)
    (hskip : q.hskip.natAbs ≤ Word.maxSigned ∧ q.vskip.natAbs ≤ Word.maxSigned) :
    q.overlap.src.Signed ∧ q.overlap.dst.Signed := by
  have hh := origins_le q.hskip
  have hv := origins_le q.vskip
  have hshared : q.overlap.src.hsize ≤ Word.maxSigned ∧ q.overlap.src.vsize ≤ Word.maxSigned := by
    constructor
    · exact Nat.le_trans (Nat.le_trans (Nat.min_le_right ..) (Nat.sub_le ..)) hsize.1
    · exact Nat.le_trans (Nat.le_trans (Nat.min_le_right ..) (Nat.sub_le ..)) hsize.2
  constructor
  · exact ⟨Nat.le_trans hh.2 hskip.1, Nat.le_trans hv.2 hskip.2, hshared.1, hshared.2⟩
  · exact ⟨Nat.le_trans hh.1 hskip.1, Nat.le_trans hv.1 hskip.2, hshared.1, hshared.2⟩

theorem staysInside_iff {skip : Int} {new total : Nat} (ht : total ≤ Word.maxSigned) :
    staysInside skip new total = true ↔ 0 ≤ skip ∧ skip + new ≤ total := by
  have hw : Word.maxSigned < Word.maxUnsigned := by decide
  simp only [staysInside, Bool.and_eq_true, decide_eq_true_eq]
  unfold Word.saturate
  omega

theorem kind_eq_shrink {q : ResizeRequest}
    (hsize : q.size.hsize ≤ Word.maxSigned ∧ q.size.vsize ≤ Word.maxSigned) :
    q.kind = .shrink ↔ (0 ≤ q.hskip ∧ q.hskip + q.newHsize ≤ q.size.hsize) ∧
      0 ≤ q.vskip ∧ q.vskip + q.newVsize ≤ q.size.vsize := by
  rw [← staysInside_iff hsize.1, ← staysInside_iff hsize.2, ← Bool.and_eq_true]
  unfold kind
  split <;> simp_all

theorem overlap_of_shrink {q : ResizeRequest}
    (hsize : q.size.hsize ≤ Word.maxSigned ∧ q.size.vsize ≤ Word.maxSigned) (hk : q.kind = .shrink) :
    q.overlap.dst = ⟨0, 0, q.newHsize, q.newVsize⟩ ∧ q.newHsize ≤ q.size.hsize ∧
      q.newVsize ≤ q.size.vsize := by
  obtain ⟨⟨hh, hh'⟩, hv, hv'⟩ := (kind_eq_shrink hsize).mp hk
  unfold overlap origins
  rw [if_neg (Int.not_lt.mpr hh), if_neg (Int.not_lt.mpr hv)]
  simp only [Region.mk.injEq, true_and]
  omega

theorem pos_of_overlap {q : ResizeRequest} (h : 0 < q.overlap.dst.hsize) :
    0 < q.newHsize ∧ 0 < q.size.hsize := by
  have hshared : 0 < min (q.newHsize - (origins q.hskip).1) (q.size.hsize - (origins q.hskip).2) := h
  omega

theorem dvd_overlap {unit new total : Nat} {skip : Int} (hk : (unit : Int) ∣ skip) (hn : unit ∣ new)
    (ht : unit ∣ total) : unit ∣ min (new - (origins skip).1) (total - (origins skip).2) := by
  have hshared := dvd_origins.mpr hk
  rw [Nat.min_def]
  split
  · exact Nat.dvd_sub hn hshared.1
  · exact Nat.dvd_sub ht hshared.2

section

variable {q : ResizeRequest} {hsub vsub : Nat}

theorem onSamples_overlap (hhskip : (hsub : Int) ∣ q.hskip) (hvskip : (vsub : Int) ∣ q.vskip)
    (hnew : hsub ∣ q.newHsize ∧ vsub ∣ q.newVsize) (hold : hsub ∣ q.size.hsize ∧ vsub ∣ q.size.vsize) :
    q.overlap.src.OnSamples hsub vsub ∧ q.overlap.dst.OnSamples hsub vsub := by
  have hh := dvd_origins.mpr hhskip
  have hv := dvd_origins.mpr hvskip
  have hhsize := dvd_overlap hhskip hnew.1 hold.1
  have hvsize := dvd_overlap hvskip hnew.2 hold.2
  exact ⟨⟨hh.2, hhsize, hv.2, hvsize⟩, hh.1, hhsize, hv.1, hvsize⟩

theorem overlap_inside (hwithin : q.hskip ≤ q.size.hsize ∧ q.vskip ≤ q.size.vsize)
    (hcovers : -q.hskip ≤ q.newHsize ∧ -q.vskip ≤ q.newVsize) :
    (q.overlap.src.right ≤ q.size.hsize ∧ q.overlap.src.bottom ≤ q.size.vsize) ∧
      q.overlap.dst.right ≤ q.newHsize ∧ q.overlap.dst.bottom ≤ q.newVsize :=
  ⟨⟨shared_le_total hwithin.1, shared_le_total hwithin.2⟩, shared_le_new hcovers.1,
    shared_le_new hcovers.2⟩

end

end ResizeRequest

end Planar
