import Mathlib.Algebra.Ring.Int.Defs
import Planar.Proofs.Heap.InPlace
set_option autoImplicit false

/-!
Resizes in place, one after the other. The skips add up, and a resize of an exclusive picture can be
undone, whatever it crops on one side and adds on another.
-/

namespace Planar

namespace RawResize

def undo (raw : RawResize) (window : Region) : RawResize :=
  ⟨-raw.hskip, -raw.vskip, window.hsize, window.vsize⟩

/-- The new sizes are signed words. A caller writes no others, and one that follows from an edge that is
kept is a difference of such words: where no such word is the difference, there is no resize. -/
structure InWords (raw : RawResize) (size : Size) : Prop where
  newHsize : RawRegion.extent raw.newHsize raw.hskip size.hsize ≤ Word.maxSigned
  newVsize : RawRegion.extent raw.newVsize raw.vskip size.vsize ≤ Word.maxSigned

end RawResize

theorem Word.negate_le {skip : Int} {total : Nat} (h : -skip ≤ total) : negate skip ≤ total :=
  Int.le_trans (Int.min_le_left ..) h

namespace Heap

variable {makers : List Manager} {h t t' : Heap} {p : Handle} {picture : Picture} {s : Storage}
  {m : Manager} {raw : RawResize} {request : ResizeRequest} {w : Region}

theorem resolvesTo_undo (hh : Holds h p picture s m) (hx : m.format.Exact)
    (hq : raw.ResolvesTo (shown picture m) request) (hw : MovesTo picture s request w)
    (hwords : raw.InWords (shown picture m)) :
    (raw.undo picture.window).ResolvesTo ⟨w.hsize, w.vsize, m.format.macropixel⟩
      ⟨-raw.hskip, -raw.vskip, picture.window.hsize, picture.window.vsize,
        ⟨w.hsize, w.vsize, m.format.macropixel⟩⟩ := by
  -- the window that comes back is accepted: its sizes were those of the picture, and what has to be
  -- covered was cropped before
  have hhoffset := hw.hoffset
  have hvoffset := hw.voffset
  rw [hq.hskip] at hhoffset
  rw [hq.vskip] at hvoffset
  have hsigned := hw.signed
  have hcovers := hq.covers
  refine ⟨?_, rfl, rfl, rfl, ?_, ?_, ?_, ?_, ?_, ?_⟩
  · have hnewH := hq.newHsize ▸ hwords.newHsize
    have hnewV := hq.newVsize ▸ hwords.newVsize
    rw [hw.hsize, hw.vsize]
    exact ⟨Int.ofNat_le.mp hnewH, Int.ofNat_le.mp hnewV⟩
  · exact (RawRegion.extent_natCast ..).symm
  · exact (RawRegion.extent_natCast ..).symm
  · simp only [RawResize.undo, hw.hsize, hw.vsize]
    unfold Word.negate at hcovers
    omega
  · simp only [RawResize.undo]
    exact ⟨Word.negate_le (by rw [Int.neg_neg]; exact hq.within.1),
      Word.negate_le (by rw [Int.neg_neg]; exact hq.within.2)⟩
  · exact Int.dvd_neg.mpr hq.macropixels
  · rw [Nat.max_eq_left hh.manager.format.macropixel_pos]
    exact (hh.sampled hx).macropixel

theorem MovesTo.undo (hh : Holds h p picture s m) (hm : m.OnGrids)
    (hw : MovesTo picture s request w) (size : Size) :
    MovesTo { picture with window := w } s
      ⟨-request.hskip, -request.vskip, picture.window.hsize, picture.window.vsize, size⟩
      picture.window := by
  have hhoffset := hw.hoffset
  have hvoffset := hw.voffset
  exact ⟨by simp only; omega, by simp only; omega, rfl, rfl, hw.signed', hw.signed, hh.held.onGrid hm⟩

theorem resize_undo (hh : Holds h p picture s m) (hx : m.Exact) (hone : h.refCount p = 1)
    (hwords : raw.InWords (shown picture m)) (hrun : resize p raw h = (.ok (), t)) :
    resize p (raw.undo picture.window) t = (.ok (), h) := by
  obtain ⟨request, w, hn, hw, -, rfl⟩ := (resize_eq_ok hh).mp hrun
  have hq := resolvesTo_of_normalize hh hn
  have hh' := hh.moves hw
  have hundo := hw.undo hh hx.toOnGrids ⟨w.hsize, w.vsize, m.format.macropixel⟩
  rw [hq.hskip, hq.vskip] at hundo
  have hresolves := RawResize.resolve_eq_ok.mpr (resolvesTo_undo hh hx.format hq hw hwords)
  refine (resize_eq_ok hh').mpr ⟨_, picture.window, ?_, hundo, .inr ?_, ?_⟩
  · exact (normalizeResize_eq_ok hh').mpr hresolves
  · rw [(shifted_of_setPicture hh.find w).counts, hone]
  · rw [setPicture_setPicture]
    exact (setPicture_picture? hh.picture?).symm

/-! ### Sequences -/

/-- Each resize adds its skips to the offsets of the window. -/
theorem forM_resize (raws : List RawResize) (hh : Holds h p picture s m)
    (hrun : raws.forM (resize p) h = (.ok (), t)) :
    ∃ w, t = h.setPicture p (some { picture with window := w }) ∧
      t.find p = .ok ({ picture with window := w }, s) ∧
        (w.hoffset : Int) = picture.window.hoffset + (raws.map RawResize.hskip).sum ∧
          (w.voffset : Int) = picture.window.voffset + (raws.map RawResize.vskip).sum := by
  induction raws generalizing h picture with
  | nil =>
    cases hrun
    exact ⟨picture.window, (setPicture_picture? hh.picture?).symm, hh.find, by simp, by simp⟩
  | cons raw raws ih =>
    obtain ⟨_, u, hfirst, hrest⟩ := Op.bind_eq_ok.mp hrun
    obtain ⟨request, w₁, hn, hw₁, -, rfl⟩ := (resize_eq_ok hh).mp hfirst
    have hq := resolvesTo_of_normalize hh hn
    obtain ⟨w, rfl, hf, hh', hv'⟩ := ih (hh.moves hw₁) hrest
    refine ⟨w, by rw [setPicture_setPicture], hf, ?_, ?_⟩
    · rw [hh', hw₁.hoffset, hq.hskip, List.map_cons, List.sum_cons, Int.add_assoc]
    · rw [hv', hw₁.voffset, hq.vskip, List.map_cons, List.sum_cons, Int.add_assoc]

theorem MovesTo.edges (hq : raw.ResolvesTo (shown picture m) request)
    (hw : MovesTo picture s request w) :
    (raw.newHsize = toEnd → w.right = picture.window.right) ∧
      (raw.newVsize = toEnd → w.bottom = picture.window.bottom) := by
  have hhoffset := hw.hoffset
  have hvoffset := hw.voffset
  have hnewH := hq.newHsize
  have hnewV := hq.newVsize
  rw [hq.hskip] at hhoffset
  rw [hq.vskip] at hvoffset
  constructor
  · intro hend
    rw [RawRegion.extent, if_pos hend, ← hw.hsize] at hnewH
    simp only [shown] at hnewH
    unfold Region.right
    omega
  · intro hend
    rw [RawRegion.extent, if_pos hend, ← hw.vsize] at hnewV
    simp only [shown] at hnewV
    unfold Region.bottom
    omega

end Heap

end Planar
