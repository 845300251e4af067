import Mathlib.Algebra.GroupWithZero.Nat
import Mathlib.Data.List.Infix
import Mathlib.Logic.Function.Iterate
import Planar.Proofs.Grid
import Planar.Proofs.Operation
set_option autoImplicit false

/-!
Grids as least common multiples. Euclid's loop is gone through turn by turn. The multiples on the way to
a grid are no larger than the last one, so that a grid is exact if and only if all of them are words.
-/

namespace Planar

namespace Grid

/-! ### Euclid's loop -/

def turn (s : Nat × Nat) : Nat × Nat := (s.2, s.1 % s.2)

/-- The loop goes on for so many turns, until the second number is zero, and ends with the first. -/
structure Ends (a b turns g : Nat) : Prop where
  runs : ∀ n, n < turns → (turn^[n] (a, b)).2 ≠ 0
  last : turn^[turns] (a, b) = (g, 0)

theorem ends_gcd (a b : Nat) : ∃ turns, turns ≤ b ∧ Ends a b turns (gcd a b) := by
  -- each turn lowers the second number, so there are no more turns than it tells
  induction a, b using gcd.induct with
  | case1 a =>
    refine ⟨0, Nat.le_refl 0, fun n hn => absurd hn (Nat.not_lt_zero n), ?_⟩
    simp [gcd]
  | case2 a b hb ih =>
    obtain ⟨turns, hle, hends⟩ := ih
    have hlower := Nat.mod_lt a (Nat.pos_of_ne_zero hb)
    refine ⟨turns + 1, by omega, fun n hn => ?_, ?_⟩
    · cases n with
      | zero => exact hb
      | succ n =>
        rw [Function.iterate_succ_apply]
        exact hends.runs n (by omega)
    · rw [Function.iterate_succ_apply, gcd, dif_neg hb]
      exact hends.last

end Grid

namespace PictureFormat

variable {f g : PictureFormat}

theorem exact_iff_running : f.Exact ↔ ∀ planes, planes <+: f.planes →
    (⟨f.macropixel, planes⟩ : PictureFormat).hlcm < 2 ^ 64 ∧
      (⟨f.macropixel, planes⟩ : PictureFormat).vlcm < 2 ^ 64 := by
  have hmax : Word.maxUnsigned = 2 ^ 64 - 1 := by decide
  constructor
  · intro hx planes hplanes
    obtain ⟨hh, hv⟩ : (⟨f.macropixel, planes⟩ : PictureFormat).Exact := hx.of_subset rfl hplanes.subset
    omega
  · intro hrunning
    obtain ⟨hh, hv⟩ : f.hlcm < 2 ^ 64 ∧ f.vlcm < 2 ^ 64 := hrunning f.planes List.prefix_rfl
    constructor <;> omega

theorem Exact.grids_of_perm (hx : g.Exact) (hm : f.macropixel = g.macropixel)
    (h : f.planes.Perm g.planes) : f.hgrid = g.hgrid ∧ f.vgrid = g.vgrid := by
  have hf : f.Exact := hx.of_subset hm h.subset
  rw [hf.hgrid_eq, hf.vgrid_eq, hx.hgrid_eq, hx.vgrid_eq]
  exact ⟨Nat.dvd_antisymm (hlcm_dvd_of_subset hm h.subset) (hlcm_dvd_of_subset hm.symm h.symm.subset),
    Nat.dvd_antisymm (vlcm_dvd_of_subset h.subset) (vlcm_dvd_of_subset h.symm.subset)⟩

/-- The multiples of the grids are the common multiples of what the planes ask for. The order of the
planes does not show. -/
structure Aligns (f : PictureFormat) : Prop where
  hgrid_dvd : ∀ n, f.hgrid ∣ n ↔ f.macropixel ∣ n ∧ ∀ p ∈ f.planes, p.hsub ∣ n
  vgrid_dvd : ∀ n, f.vgrid ∣ n ↔ ∀ p ∈ f.planes, p.vsub ∣ n
  pos : 0 < f.hgrid ∧ 0 < f.vgrid
  order : ∀ planes, planes.Perm f.planes →
    (⟨f.macropixel, planes⟩ : PictureFormat).hgrid = f.hgrid ∧
      (⟨f.macropixel, planes⟩ : PictureFormat).vgrid = f.vgrid

theorem Valid.aligns (hf : f.Valid) (hx : f.Exact) : f.Aligns where
  hgrid_dvd := hgrid_dvd_iff hf hx
  vgrid_dvd := vgrid_dvd_iff hf hx
  pos := ⟨hx.hgrid_pos, hx.vgrid_pos⟩
  order := fun _ hplanes => hx.grids_of_perm rfl hplanes

/-- Euclid's loop ends with the greatest common divisor. A least common multiple is found if it is a word,
is zero if one of the numbers is, and wraps around otherwise. A grid is exact if and only if no multiple on
the way to it wraps around, and the grids are then common multiples of all that the planes ask for. -/
theorem grids_are_common_multiples :
    (∀ a b, Grid.gcd a b = Nat.gcd a b ∧ Grid.gcd a 0 = a ∧
      ∃ turns, turns ≤ b ∧ Grid.Ends a b turns (Grid.gcd a b)) ∧
    (∀ a b, Grid.lcm a b = Nat.lcm a b % 2 ^ 64 ∧
      (Nat.lcm a b < 2 ^ 64 → Grid.lcm a b = Nat.lcm a b) ∧ (a = 0 ∨ b = 0 → Grid.lcm a b = 0)) ∧
    ∀ f : PictureFormat, f.validate = .ok () →
      (f.Exact ↔ ∀ planes, planes <+: f.planes →
        (⟨f.macropixel, planes⟩ : PictureFormat).hlcm < 2 ^ 64 ∧
          (⟨f.macropixel, planes⟩ : PictureFormat).vlcm < 2 ^ 64) ∧
      (f.Exact → f.Aligns) := by
  have hwrap : ∀ a b, Grid.lcm a b = Nat.lcm a b % 2 ^ 64 := Grid.lcm_eq
  refine ⟨fun a b => ⟨Grid.gcd_eq a b, ?_, Grid.ends_gcd a b⟩, fun a b => ⟨hwrap a b, ?_, ?_⟩,
    fun f hf => ⟨exact_iff_running, (validate_eq_ok.mp hf).aligns⟩⟩
  · rw [Grid.gcd_eq, Nat.gcd_zero_right]
  · intro hword
    rw [hwrap, Nat.mod_eq_of_lt hword]
  · exact fun hzero => if_pos hzero

def sixByTen : PictureFormat := ⟨4, [⟨"y8", 1, 1, 1⟩, ⟨"u8", 6, 2, 1⟩, ⟨"v8", 10, 3, 1⟩]⟩

/-- Thirty columns are whole samples of all planes, but no whole macropixels. -/
theorem grids_of_sixByTen : sixByTen.validate = .ok () ∧ sixByTen.Exact ∧
    ¬ sixByTen.hgrid ∣ 30 ∧ sixByTen.hgrid ∣ 60 ∧ sixByTen.vgrid ∣ 6 ∧
      (⟨4, sixByTen.planes.reverse⟩ : PictureFormat).hgrid = sixByTen.hgrid := by
  have hvalid : sixByTen.validate = .ok () := eq_ok_of_toOption (by decide +kernel)
  obtain ⟨-, -, hformats⟩ := grids_are_common_multiples
  obtain ⟨hrunning, hexact⟩ := hformats sixByTen hvalid
  have hwords : ∀ planes ∈ sixByTen.planes.inits, (⟨4, planes⟩ : PictureFormat).hlcm < 2 ^ 64 ∧
      (⟨4, planes⟩ : PictureFormat).vlcm < 2 ^ 64 := by decide +kernel
  have hx := hrunning.mpr fun planes hplanes => hwords planes ((List.mem_inits _ _).mpr hplanes)
  have haligns := hexact hx
  refine ⟨hvalid, hx, ?_, ?_, ?_, ?_⟩
  · rw [haligns.hgrid_dvd]
    decide
  · rw [haligns.hgrid_dvd]
    decide
  · rw [haligns.vgrid_dvd]
    decide
  · exact (haligns.order _ (List.reverse_perm _)).1

/-- The least common multiple has more than a hundred bits. -/
def crowded : PictureFormat :=
  ⟨1, [128, 13, 17, 19, 23, 29, 37, 41, 83, 97, 107, 109, 113, 127, 131, 137, 139, 157, 163, 197,
    239].map fun hsub => ⟨toString hsub, hsub, 1, 1⟩⟩

example : crowded.hgrid = 896 := by decide +kernel

end PictureFormat

end Planar
