import Mathlib.Algebra.GroupWithZero.Nat
import Mathlib.Algebra.Ring.Int.Defs
import Planar.Proofs.Resize
import Planar.Proofs.Heap.Pixels
set_option autoImplicit false

/-!
What the two rectangles of a resize mean, pixel by pixel. A request that resolves crops no more than there
is and covers what it adds, so no difference on the way to the rectangles goes below zero.
-/

namespace Planar

def Size.Has (size : Size) (x y : Int) : Prop := (0 ≤ x ∧ x < size.hsize) ∧ 0 ≤ y ∧ y < size.vsize

structure Region.OnColumns (r : Region) (unit : Nat) : Prop where
  hoffset : unit ∣ r.hoffset
  right : unit ∣ r.right
  hsize : unit ∣ r.hsize

/-- The pixel of the source rectangle that is as far from its corner. -/
def Overlap.counterpart (o : Overlap) (x y : Nat) : Nat × Nat :=
  (x - o.dst.hoffset + o.src.hoffset, y - o.dst.voffset + o.src.voffset)

namespace ResizeRequest

/-- All that is taken off a size on the way to the rectangles is there. -/
structure Subtracts (q : ResizeRequest) : Prop where
  newHsize : (origins q.hskip).1 ≤ q.newHsize
  newVsize : (origins q.vskip).1 ≤ q.newVsize
  hsize : (origins q.hskip).2 ≤ q.size.hsize
  vsize : (origins q.vskip).2 ≤ q.size.vsize

/-- The rectangles are of one size. One is what the new picture has of the old one, and the other is where
the old one has it. -/
structure Shares (q : ResizeRequest) : Prop where
  alike : q.overlap.src.hsize = q.overlap.dst.hsize ∧ q.overlap.src.vsize = q.overlap.dst.vsize
  source : q.overlap.src.fits q.size = true
  destination : q.overlap.dst.fits ⟨q.newHsize, q.newVsize, q.size.macropixel⟩ = true
  pixels : ∀ x y : Nat, x < q.newHsize → y < q.newVsize →
    (q.overlap.dst.Contains x y ↔ q.size.Has (x + q.hskip) (y + q.vskip))
  counterparts : ∀ x y : Nat, q.overlap.dst.Contains x y →
    q.overlap.src.Contains (q.overlap.counterpart x y).1 (q.overlap.counterpart x y).2 ∧
      ((q.overlap.counterpart x y).1 : Int) = x + q.hskip ∧
        ((q.overlap.counterpart x y).2 : Int) = y + q.vskip

section

variable {new total x : Nat} {skip : Int}

theorem mem_shared_iff (hx : x < new) :
    ((origins skip).1 ≤ x ∧
        x < (origins skip).1 + min (new - (origins skip).1) (total - (origins skip).2)) ↔
      0 ≤ x + skip ∧ x + skip < total := by
  have hsub := origins_sub skip
  have hzero := origins_eq_zero skip
  omega

theorem counterpart_mem (hl : (origins skip).1 ≤ x)
    (hr : x < (origins skip).1 + min (new - (origins skip).1) (total - (origins skip).2)) :
    ((origins skip).2 ≤ x - (origins skip).1 + (origins skip).2 ∧
        x - (origins skip).1 + (origins skip).2 <
          (origins skip).2 + min (new - (origins skip).1) (total - (origins skip).2)) ∧
      ((x - (origins skip).1 + (origins skip).2 : Nat) : Int) = x + skip := by
  have hsub := origins_sub skip
  omega

theorem shared_eq_new_iff (hk : skip ≤ total) :
    (origins skip).1 = 0 ∧ min (new - (origins skip).1) (total - (origins skip).2) = new ↔
      0 ≤ skip ∧ skip + new ≤ total := by
  have hsub := origins_sub skip
  have hzero := origins_eq_zero skip
  omega

end

variable {raw : RawResize} {size : Size} {q : ResizeRequest}

theorem covers_of_resolvesTo (hq : raw.ResolvesTo size q)
    (hskips : -2 ^ 62 < raw.hskip ∧ -2 ^ 62 < raw.vskip) :
    -q.hskip ≤ q.newHsize ∧ -q.vskip ≤ q.newVsize := by
  -- no growth is as large as the largest signed word here, so its opposite is what is compared
  have hmax : (Word.maxSigned : Int) = 2 ^ 63 - 1 := by decide
  have hcovers := hq.covers
  unfold Word.negate at hcovers
  rw [hq.hskip, hq.vskip]
  omega

section

variable (hwithin : q.hskip ≤ q.size.hsize ∧ q.vskip ≤ q.size.vsize)
  (hcovers : -q.hskip ≤ q.newHsize ∧ -q.vskip ≤ q.newVsize)

include hwithin hcovers

theorem subtracts_of_covers : q.Subtracts := by
  have hh := origins_sub q.hskip
  have hv := origins_sub q.vskip
  have hh' := origins_eq_zero q.hskip
  have hv' := origins_eq_zero q.vskip
  exact ⟨by omega, by omega, by omega, by omega⟩

theorem shares_of_covers : q.Shares := by
  obtain ⟨hsrc, hdst⟩ := overlap_inside hwithin hcovers
  refine ⟨⟨rfl, rfl⟩, Region.fits_iff.mpr hsrc, Region.fits_iff.mpr hdst, fun x y hx hy => ?_,
    fun x y hin => ?_⟩
  · exact and_congr (mem_shared_iff hx) (mem_shared_iff hy)
  · obtain ⟨⟨hl, hr⟩, ht, hb⟩ := hin
    obtain ⟨hcolumn, hx⟩ := counterpart_mem hl hr
    obtain ⟨hline, hy⟩ := counterpart_mem ht hb
    exact ⟨⟨hcolumn, hline⟩, hx, hy⟩

end

theorem kind_eq_shrink_iff_overlap (hsigned : q.size.hsize ≤ Word.maxSigned ∧ q.size.vsize ≤ Word.maxSigned)
    (hwithin : q.hskip ≤ q.size.hsize ∧ q.vskip ≤ q.size.vsize) :
    q.kind = .shrink ↔ q.overlap.dst = ⟨0, 0, q.newHsize, q.newVsize⟩ := by
  rw [kind_eq_shrink hsigned, ← shared_eq_new_iff hwithin.1, ← shared_eq_new_iff hwithin.2]
  unfold overlap
  simp only [Region.mk.injEq]
  constructor
  · rintro ⟨⟨hleft, hwidth⟩, htop, hheight⟩
    exact ⟨hleft, htop, hwidth, hheight⟩
  · rintro ⟨hleft, htop, hwidth, hheight⟩
    exact ⟨⟨hleft, hwidth⟩, htop, hheight⟩

theorem onColumns_overlap {unit : Nat} (hskip : (unit : Int) ∣ q.hskip) (hnew : unit ∣ q.newHsize)
    (hold : unit ∣ q.size.hsize) : q.overlap.src.OnColumns unit ∧ q.overlap.dst.OnColumns unit := by
  obtain ⟨hdst, hsrc⟩ := dvd_origins.mpr hskip
  have hwidth := dvd_overlap hskip hnew hold
  exact ⟨⟨hsrc, Nat.dvd_add hsrc hwidth, hwidth⟩, hdst, Nat.dvd_add hdst hwidth, hwidth⟩

/-- The rectangles of a request that resolves are what the old and the new picture share. If the old width
goes along macropixels then so do their columns, where a macropixel of zero counts as one. A shrink is a
request that keeps all of the new picture. -/
theorem overlap_is_shared (hsmall : size.hsize < 2 ^ 62 ∧ size.vsize < 2 ^ 62)
    (hskips : -2 ^ 62 < raw.hskip ∧ -2 ^ 62 < raw.vskip) (h : raw.resolve size = .ok q) :
    (q.size = size ∧ q.hskip = raw.hskip ∧ q.vskip = raw.vskip) ∧ q.Subtracts ∧ q.Shares ∧
      (max size.macropixel 1 ∣ size.hsize →
        q.overlap.src.OnColumns (max size.macropixel 1) ∧
          q.overlap.dst.OnColumns (max size.macropixel 1)) ∧
        (q.kind = .shrink ↔ q.overlap.dst = ⟨0, 0, q.newHsize, q.newVsize⟩) := by
  have hq := RawResize.resolve_eq_ok.mp h
  have hcovers := covers_of_resolvesTo hq hskips
  obtain rfl := hq.before
  have hwithin : q.hskip ≤ q.size.hsize ∧ q.vskip ≤ q.size.vsize := by
    rw [hq.hskip, hq.vskip]
    exact hq.within
  refine ⟨⟨rfl, hq.hskip, hq.vskip⟩, subtracts_of_covers hwithin hcovers, shares_of_covers hwithin hcovers,
    fun hold => ?_, kind_eq_shrink_iff_overlap hq.signed hwithin⟩
  exact onColumns_overlap (hq.hskip ▸ hq.macropixels) hq.macropixels' hold

theorem overlap_of_mixed_resize : ∃ q, (⟨2, -4, 8, 10⟩ : RawResize).resolve ⟨8, 6, 2⟩ = .ok q ∧
    q.overlap.dst.OnColumns 2 ∧ q.overlap.dst.Contains 5 4 ∧ ¬ q.overlap.dst.Contains 6 4 ∧
      q.kind ≠ .shrink := by
  have hr : (⟨2, -4, 8, 10⟩ : RawResize).resolve ⟨8, 6, 2⟩ = .ok ⟨2, -4, 8, 10, ⟨8, 6, 2⟩⟩ :=
    eq_ok_of_toOption (by decide)
  obtain ⟨-, -, hshares, hcolumns, hkind⟩ := overlap_is_shared (by decide) (by decide) hr
  refine ⟨_, hr, (hcolumns (by decide)).2, ?_, ?_, ?_⟩
  · rw [hshares.pixels 5 4 (by decide) (by decide)]
    unfold Size.Has
    decide
  · rw [hshares.pixels 6 4 (by decide) (by decide)]
    unfold Size.Has
    decide
  · rw [Ne, hkind]
    decide

/-- The widths of a picture without pixels in its macropixels are checked as if there was one, so a width
of zero can grow to the left by a number that is no multiple of zero. -/
theorem columns_off_macropixels : ¬ ∀ (raw : RawResize) (size : Size) (q : ResizeRequest),
    size.hsize < 2 ^ 62 ∧ size.vsize < 2 ^ 62 → -2 ^ 62 < raw.hskip ∧ -2 ^ 62 < raw.vskip →
      raw.resolve size = .ok q → size.macropixel ∣ size.hsize →
        q.overlap.src.OnColumns size.macropixel ∧ q.overlap.dst.OnColumns size.macropixel := by
  intro hall
  have hr : (⟨-3, 0, 3, -1⟩ : RawResize).resolve ⟨0, 4, 0⟩ = .ok ⟨-3, 0, 3, 4, ⟨0, 4, 0⟩⟩ :=
    eq_ok_of_toOption (by decide)
  obtain ⟨-, hdst⟩ := hall _ _ _ (by decide) (by decide) hr (by decide)
  exact absurd hdst.hoffset (by decide)

end ResizeRequest

end Planar
