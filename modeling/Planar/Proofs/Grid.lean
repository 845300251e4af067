import Mathlib.Data.Nat.Prime.Basic
import Mathlib.Order.Bounds.Basic
import Planar.Format
set_option autoImplicit false

/-!
Grids divide what their parts divide, and the formats that pass validation.
-/

namespace Planar

namespace Grid

theorem gcd_eq (a b : Nat) : gcd a b = Nat.gcd a b := by
  induction a, b using gcd.induct with
  | case1 a => simp [gcd]
  | case2 a b hb ih =>
    rw [gcd, dif_neg hb, ih, Nat.gcd_comm b, ← Nat.gcd_rec, Nat.gcd_comm]

theorem lcm_eq (a b : Nat) : lcm a b = Word.wrap (Nat.lcm a b) := by
  unfold lcm
  split
  · rename_i h
    rcases h with rfl | rfl <;> simp [Word.wrap]
  · rw [gcd_eq, Nat.lcm_eq_mul_div, Nat.div_mul_right_comm (Nat.gcd_dvd_left a b)]

/-- No word is a multiple of the power of two at which words wrap around, nor is a least common multiple
of two words: it has its twos from one of them. -/
theorem lcm_pos {a b : Nat} (ha : 0 < a) (hb : 0 < b) (ha' : a ≤ Word.maxUnsigned)
    (hb' : b ≤ Word.maxUnsigned) : 0 < lcm a b := by
  have hword : Word.maxUnsigned + 1 = 2 ^ 64 := by decide
  have hcoprime := Nat.coprime_div_gcd_div_gcd (Nat.gcd_pos_of_pos_left b ha)
  rw [lcm_eq, Word.wrap, hword]
  apply Nat.pos_of_ne_zero
  intro hzero
  have hdvd : 2 ^ 64 ∣ Nat.lcm a b := Nat.dvd_of_mod_eq_zero hzero
  by_cases htwo : 2 ∣ a / Nat.gcd a b
  · have hodd : Nat.Coprime 2 (b / Nat.gcd a b) := hcoprime.coprime_dvd_left htwo
    rw [Nat.lcm_eq_mul_div, Nat.mul_div_assoc _ (Nat.gcd_dvd_right a b)] at hdvd
    have hle := Nat.le_of_dvd ha (Nat.Coprime.dvd_of_dvd_mul_right (hodd.pow_left 64) hdvd)
    omega
  · have hodd : Nat.Coprime 2 (a / Nat.gcd a b) :=
      (Nat.Prime.coprime_iff_not_dvd Nat.prime_two).mpr htwo
    rw [Nat.lcm_eq_mul_div, ← Nat.div_mul_right_comm (Nat.gcd_dvd_left a b)] at hdvd
    have hle := Nat.le_of_dvd hb (Nat.Coprime.dvd_of_dvd_mul_left (hodd.pow_left 64) hdvd)
    omega

theorem dvd_roundUp {grid : Nat} (n : Nat) (h : 0 < grid) : grid ∣ roundUp n grid := by
  unfold roundUp
  split
  · exact Nat.dvd_of_mod_eq_zero ‹_›
  · have hlt := Nat.mod_lt n h
    have hn := Nat.div_add_mod n grid
    refine ⟨n / grid + 1, ?_⟩
    rw [Nat.mul_add, Nat.mul_one]
    omega

theorem le_roundUp (n grid : Nat) : n ≤ roundUp n grid := by
  unfold roundUp
  split <;> omega

theorem isLeast_roundUp {grid : Nat} (n : Nat) (hg : 0 < grid) :
    IsLeast {k | grid ∣ k ∧ n ≤ k} (roundUp n grid) := by
  refine ⟨⟨dvd_roundUp n hg, le_roundUp n grid⟩, ?_⟩
  rintro k ⟨⟨c, rfl⟩, hle⟩
  unfold roundUp
  by_cases hn : n % grid = 0
  · rw [if_pos hn]
    exact hle
  · rw [if_neg hn]
    have hne : n ≠ grid * c := fun he => hn (he ▸ Nat.mul_mod_right grid c)
    have hquot : n / grid < c := by
      rw [Nat.div_lt_iff_lt_mul hg, Nat.mul_comm]
      omega
    have hnext := Nat.mul_le_mul_left grid (Nat.succ_le_of_lt hquot)
    have hparts := Nat.div_add_mod n grid
    have hrest := Nat.mod_lt n hg
    rw [Nat.succ_eq_add_one, Nat.mul_add, Nat.mul_one] at hnext
    omega

theorem add_div_of_dvd {unit a : Nat} (h : unit ∣ a) (b : Nat) :
    (a + b) / unit = a / unit + b / unit := by
  obtain ⟨n, rfl⟩ := h
  rcases Nat.eq_zero_or_pos unit with rfl | hu
  · simp
  · rw [Nat.mul_add_div hu, Nat.mul_div_cancel_left _ hu]

theorem div_sub_div {unit a b : Nat} {skip : Int} (ha : unit ∣ a) (h : (b : Int) - a = skip) :
    skip / unit = (b / unit : Nat) - (a / unit : Nat) := by
  rw [← h, Int.sub_ediv_of_dvd _ (Int.natCast_dvd_natCast.mpr ha), Int.natCast_ediv,
    Int.natCast_ediv]

theorem min_sub_div {unit new dst total src : Nat} (hn : unit ∣ new) (hd : unit ∣ dst)
    (ht : unit ∣ total) (hs : unit ∣ src) :
    min (new - dst) (total - src) / unit =
      min (new / unit - dst / unit) (total / unit - src / unit) := by
  obtain ⟨n, rfl⟩ := hn
  obtain ⟨d, rfl⟩ := hd
  obtain ⟨t, rfl⟩ := ht
  obtain ⟨s, rfl⟩ := hs
  rcases Nat.eq_zero_or_pos unit with rfl | hu
  · simp
  · rw [← Nat.mul_sub, ← Nat.mul_sub, Nat.mul_min_mul_left]
    simp only [Nat.mul_div_cancel_left _ hu]

section

variable {α : Type} (part : α → Nat)

theorem foldl_lcm_dvd_iff (as : List α) (start n : Nat) :
    as.foldl (fun grid a => Nat.lcm grid (part a)) start ∣ n ↔
      start ∣ n ∧ ∀ a ∈ as, part a ∣ n := by
  induction as generalizing start with
  | nil => simp
  | cons a as ih =>
    rw [List.foldl_cons, ih, Nat.lcm_dvd_iff]
    simp [and_assoc]

theorem foldl_lcm_pos (as : List α) (start : Nat) (hs : 0 < start) (hp : ∀ a ∈ as, 0 < part a) :
    0 < as.foldl (fun grid a => Nat.lcm grid (part a)) start := by
  induction as generalizing start with
  | nil => exact hs
  | cons a as ih =>
    have ha : 0 < Nat.lcm start (part a) := Nat.lcm_pos hs (hp a List.mem_cons_self)
    exact ih _ ha fun b hb => hp b (List.mem_cons_of_mem a hb)

theorem le_foldl_lcm (as : List α) (start : Nat) (hs : 0 < start) (hp : ∀ a ∈ as, 0 < part a) :
    start ≤ as.foldl (fun grid a => Nat.lcm grid (part a)) start :=
  Nat.le_of_dvd (foldl_lcm_pos part as start hs hp)
    ((foldl_lcm_dvd_iff part as start _).mp (Nat.dvd_refl _)).1

theorem foldl_lcm_dvd_of_subset {as bs : List α} (start : Nat) (h : as ⊆ bs) :
    as.foldl (fun grid a => Nat.lcm grid (part a)) start ∣
      bs.foldl (fun grid a => Nat.lcm grid (part a)) start := by
  obtain ⟨hstart, hparts⟩ := (foldl_lcm_dvd_iff part bs start _).mp (Nat.dvd_refl _)
  exact (foldl_lcm_dvd_iff part as start _).mpr ⟨hstart, fun a ha => hparts a (h ha)⟩

/-- No multiple on the way is larger than the last one, so that nothing wraps around if that is a word. -/
theorem foldl_lcm_eq (as : List α) (start : Nat) (hs : 0 < start) (hp : ∀ a ∈ as, 0 < part a)
    (hword : as.foldl (fun grid a => Nat.lcm grid (part a)) start ≤ Word.maxUnsigned) :
    as.foldl (fun grid a => lcm grid (part a)) start =
      as.foldl (fun grid a => Nat.lcm grid (part a)) start := by
  induction as generalizing start with
  | nil => rfl
  | cons a as ih =>
    obtain ⟨ha, has⟩ := List.forall_mem_cons.mp hp
    have hnext : 0 < Nat.lcm start (part a) := Nat.lcm_pos hs ha
    have hle := le_foldl_lcm part as _ hnext has
    rw [List.foldl_cons, List.foldl_cons, lcm_eq, Word.wrap_of_le (Nat.le_trans hle hword)]
    exact ih _ hnext has hword

theorem foldl_wrapped_pos (as : List α) (start : Nat) (hs : 0 < start ∧ start ≤ Word.maxUnsigned)
    (hp : ∀ a ∈ as, 0 < part a ∧ part a ≤ Word.maxUnsigned) :
    0 < as.foldl (fun grid a => lcm grid (part a)) start := by
  induction as generalizing start with
  | nil => exact hs.1
  | cons a as ih =>
    obtain ⟨ha, has⟩ := List.forall_mem_cons.mp hp
    have hle : lcm start (part a) ≤ Word.maxUnsigned := lcm_eq .. ▸ Word.wrap_le _
    exact ih _ ⟨lcm_pos hs.1 ha.1 hs.2 ha.2, hle⟩ has

end

end Grid

namespace PictureFormat

structure Valid (f : PictureFormat) : Prop where
  macropixel_pos : 0 < f.macropixel
  nonempty : f.planes ≠ []
  factors_pos : ∀ p ∈ f.planes, 0 < p.hsub ∧ 0 < p.vsub ∧ 0 < p.macropixelSize
  names : (f.planes.map PlaneFormat.chroma).Nodup

theorem checkPlanes_eq_ok (seen planes : List PlaneFormat) :
    checkPlanes seen planes = .ok () ↔
      (∀ p ∈ planes, 0 < p.hsub ∧ 0 < p.vsub ∧ 0 < p.macropixelSize) ∧
        (∀ p ∈ planes, ∀ q ∈ seen, q.chroma ≠ p.chroma) ∧
          (planes.map PlaneFormat.chroma).Nodup := by
  induction planes generalizing seen with
  | nil => simp [checkPlanes]
  | cons p planes ih =>
    unfold checkPlanes
    by_cases hz : p.hsub = 0 ∨ p.vsub = 0 ∨ p.macropixelSize = 0
    · rw [if_pos hz]
      simp only [reduceCtorEq, false_iff]
      intro h
      have := h.1 p List.mem_cons_self
      omega
    rw [if_neg hz]
    by_cases hs : seen.any (·.chroma = p.chroma)
    · rw [if_pos hs]
      obtain ⟨q, hq, hc⟩ := List.any_eq_true.mp hs
      simp only [reduceCtorEq, false_iff]
      intro h
      exact h.2.1 p List.mem_cons_self q hq (by simpa using hc)
    · rw [if_neg hs, ih]
      have hfresh : ∀ q ∈ seen, q.chroma ≠ p.chroma := by simpa using hs
      have hpos : 0 < p.hsub ∧ 0 < p.vsub ∧ 0 < p.macropixelSize := by omega
      constructor
      · intro hgiven
        obtain ⟨hf, hn, hd⟩ := hgiven
        refine ⟨List.forall_mem_cons.mpr ⟨hpos, hf⟩, List.forall_mem_cons.mpr ⟨hfresh, ?_⟩, ?_⟩
        · exact fun a ha q hq => hn a ha q (List.mem_cons_of_mem p hq)
        · rw [List.map_cons, List.nodup_cons]
          refine ⟨?_, hd⟩
          intro hm
          obtain ⟨a, ha, hc⟩ := List.mem_map.mp hm
          exact hn a ha p List.mem_cons_self hc.symm
      · intro hgiven
        obtain ⟨hf, hn, hd⟩ := hgiven
        rw [List.map_cons, List.nodup_cons] at hd
        refine ⟨(List.forall_mem_cons.mp hf).2, fun a ha q hq => ?_, hd.2⟩
        rcases List.mem_cons.mp hq with rfl | hq
        · exact fun hc => hd.1 (hc ▸ List.mem_map_of_mem ha)
        · exact hn a (List.mem_cons_of_mem p ha) q hq

theorem validate_eq_ok {f : PictureFormat} : f.validate = .ok () ↔ f.Valid := by
  unfold validate
  by_cases hm : f.macropixel = 0
  · rw [if_pos hm]
    simp only [reduceCtorEq, false_iff]
    intro h
    exact Nat.ne_of_gt h.macropixel_pos hm
  rw [if_neg hm]
  by_cases hp : f.planes.isEmpty
  · rw [if_pos hp]
    simp only [reduceCtorEq, false_iff]
    exact fun h => h.nonempty (by simpa using hp)
  · rw [if_neg hp, checkPlanes_eq_ok]
    constructor
    · intro hgiven
      obtain ⟨hf, -, hn⟩ := hgiven
      exact ⟨Nat.pos_of_ne_zero hm, by simpa using hp, hf, hn⟩
    · intro h
      exact ⟨h.factors_pos, by simp, h.names⟩

def hlcm (f : PictureFormat) : Nat :=
  f.planes.foldl (fun grid p => Nat.lcm grid (max p.hsub 1)) (max f.macropixel 1)

def vlcm (f : PictureFormat) : Nat :=
  f.planes.foldl (fun grid p => Nat.lcm grid (max p.vsub 1)) 1

/-- The grids are words, so that they are what their names say. -/
structure Exact (f : PictureFormat) : Prop where
  hlcm : f.hlcm ≤ Word.maxUnsigned
  vlcm : f.vlcm ≤ Word.maxUnsigned

variable {f g : PictureFormat}

theorem hlcm_pos (f : PictureFormat) : 0 < f.hlcm :=
  Grid.foldl_lcm_pos (fun p : PlaneFormat => max p.hsub 1) _ _ (by omega) fun _ _ => by omega

theorem vlcm_pos (f : PictureFormat) : 0 < f.vlcm :=
  Grid.foldl_lcm_pos (fun p : PlaneFormat => max p.vsub 1) _ _ (by omega) fun _ _ => by omega

theorem Exact.hgrid_eq (hx : f.Exact) : f.hgrid = f.hlcm :=
  Grid.foldl_lcm_eq (fun p : PlaneFormat => max p.hsub 1) _ _ (by omega) (fun _ _ => by omega) hx.hlcm

theorem Exact.vgrid_eq (hx : f.Exact) : f.vgrid = f.vlcm :=
  Grid.foldl_lcm_eq (fun p : PlaneFormat => max p.vsub 1) _ _ (by omega) (fun _ _ => by omega) hx.vlcm

/-- The numbers of a format on a machine. -/
structure InWords (f : PictureFormat) : Prop where
  macropixel : f.macropixel ≤ Word.maxUnsigned
  factors : ∀ p ∈ f.planes, p.hsub ≤ Word.maxUnsigned ∧ p.vsub ≤ Word.maxUnsigned

theorem InWords.hgrid_pos (hw : f.InWords) : 0 < f.hgrid := by
  have hone : 1 ≤ Word.maxUnsigned := by decide
  refine Grid.foldl_wrapped_pos (fun p : PlaneFormat => max p.hsub 1) _ _ ⟨by omega, ?_⟩
    fun p hp => ⟨by omega, ?_⟩
  · exact Nat.max_le.mpr ⟨hw.macropixel, hone⟩
  · exact Nat.max_le.mpr ⟨(hw.factors p hp).1, hone⟩

theorem InWords.vgrid_pos (hw : f.InWords) : 0 < f.vgrid := by
  have hone : 1 ≤ Word.maxUnsigned := by decide
  refine Grid.foldl_wrapped_pos (fun p : PlaneFormat => max p.vsub 1) _ _ ⟨by omega, hone⟩
    fun p hp => ⟨by omega, ?_⟩
  exact Nat.max_le.mpr ⟨(hw.factors p hp).2, hone⟩

theorem Exact.hgrid_pos (hx : f.Exact) : 0 < f.hgrid := hx.hgrid_eq ▸ f.hlcm_pos

theorem Exact.vgrid_pos (hx : f.Exact) : 0 < f.vgrid := hx.vgrid_eq ▸ f.vlcm_pos

theorem hlcm_dvd_of_subset (hm : f.macropixel = g.macropixel) (h : f.planes ⊆ g.planes) :
    f.hlcm ∣ g.hlcm := by
  unfold hlcm
  rw [hm]
  exact Grid.foldl_lcm_dvd_of_subset (fun p : PlaneFormat => max p.hsub 1) _ h

theorem vlcm_dvd_of_subset (h : f.planes ⊆ g.planes) : f.vlcm ∣ g.vlcm :=
  Grid.foldl_lcm_dvd_of_subset (fun p : PlaneFormat => max p.vsub 1) _ h

theorem Exact.of_subset (hx : g.Exact) (hm : f.macropixel = g.macropixel) (h : f.planes ⊆ g.planes) :
    f.Exact where
  hlcm := Nat.le_trans (Nat.le_of_dvd g.hlcm_pos (hlcm_dvd_of_subset hm h)) hx.hlcm
  vlcm := Nat.le_trans (Nat.le_of_dvd g.vlcm_pos (vlcm_dvd_of_subset h)) hx.vlcm

theorem hgrid_dvd_iff (h : f.Valid) (hx : f.Exact) (n : Nat) :
    f.hgrid ∣ n ↔ f.macropixel ∣ n ∧ ∀ p ∈ f.planes, p.hsub ∣ n := by
  have hm : max f.macropixel 1 = f.macropixel := Nat.max_eq_left h.macropixel_pos
  rw [hx.hgrid_eq, PictureFormat.hlcm, Grid.foldl_lcm_dvd_iff fun p : PlaneFormat => max p.hsub 1, hm]
  refine and_congr_right fun _ => forall₂_congr fun p hp => ?_
  rw [Nat.max_eq_left (h.factors_pos p hp).1]

theorem vgrid_dvd_iff (h : f.Valid) (hx : f.Exact) (n : Nat) :
    f.vgrid ∣ n ↔ ∀ p ∈ f.planes, p.vsub ∣ n := by
  rw [hx.vgrid_eq, PictureFormat.vlcm, Grid.foldl_lcm_dvd_iff fun p : PlaneFormat => max p.vsub 1]
  simp only [Nat.one_dvd, true_and]
  refine forall₂_congr fun p hp => ?_
  rw [Nat.max_eq_left (h.factors_pos p hp).2.1]

theorem hgrid_dvd_skip_iff (h : f.Valid) (hx : f.Exact) (skip : Int) : (f.hgrid : Int) ∣ skip ↔
    (f.macropixel : Int) ∣ skip ∧ ∀ p ∈ f.planes, (p.hsub : Int) ∣ skip := by
  simp only [Int.ofNat_dvd_left, hgrid_dvd_iff h hx]

theorem vgrid_dvd_skip_iff (h : f.Valid) (hx : f.Exact) (skip : Int) :
    (f.vgrid : Int) ∣ skip ↔ ∀ p ∈ f.planes, (p.vsub : Int) ∣ skip := by
  simp only [Int.ofNat_dvd_left, vgrid_dvd_iff h hx]

end PictureFormat

end Planar
