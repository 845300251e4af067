import Planar.Proofs.Heap.Admission
import Planar.Proofs.Heap.Takeover
set_option autoImplicit false

/-!
Resizes in place, told by rectangles. A request means a rectangle of the allocation, and a shrink is
one that lies in the window.
-/

namespace Planar

/-- No edge lies outside of the other region, also where there is nothing inside. -/
structure Region.Inside (r outer : Region) : Prop where
  left : outer.hoffset ≤ r.hoffset
  top : outer.voffset ≤ r.voffset
  right : r.right ≤ outer.right
  bottom : r.bottom ≤ outer.bottom

/-- The rectangle that a request makes of another one. -/
structure ResizeRequest.Turns (q : ResizeRequest) (old new : Region) : Prop where
  hoffset : (new.hoffset : Int) = old.hoffset + q.hskip
  voffset : (new.voffset : Int) = old.voffset + q.vskip
  hsize : new.hsize = q.newHsize
  vsize : new.vsize = q.newVsize

theorem ResizeRequest.Turns.unique {q : ResizeRequest} {old w w' : Region} (ht : q.Turns old w)
    (ht' : q.Turns old w') : w' = w := by
  have hoffset : w'.hoffset = w.hoffset := by
    have hh := ht.hoffset
    have hh' := ht'.hoffset
    omega
  have voffset : w'.voffset = w.voffset := by
    have hv := ht.voffset
    have hv' := ht'.voffset
    omega
  cases w
  cases w'
  simp only [Region.mk.injEq]
  exact ⟨hoffset, voffset, ht'.hsize.trans ht.hsize.symm, ht'.vsize.trans ht.vsize.symm⟩

/-- Only what stays inside is a shrink, on whatever sides the request crops. -/
theorem ResizeRequest.Turns.inside_iff {q : ResizeRequest} {old new : Region} (ht : q.Turns old new)
    (hsize : q.size.hsize = old.hsize ∧ q.size.vsize = old.vsize)
    (hsigned : old.hsize ≤ Word.maxSigned ∧ old.vsize ≤ Word.maxSigned) :
    new.Inside old ↔ q.kind = .shrink := by
  have hh := ht.hoffset
  have hv := ht.voffset
  rw [kind_eq_shrink (by rw [hsize.1, hsize.2]; exact hsigned), hsize.1, hsize.2, ← ht.hsize, ← ht.vsize]
  constructor
  · rintro ⟨hleft, htop, hright, hbottom⟩
    unfold Region.right at hright
    unfold Region.bottom at hbottom
    omega
  · rintro ⟨hinH, hinV⟩
    refine ⟨?_, ?_, ?_, ?_⟩
    · omega
    · omega
    · unfold Region.right
      omega
    · unfold Region.bottom
      omega

namespace Heap

variable {makers : List Manager} {h t : Heap} {p : Handle} {picture : Picture} {s : Storage}
  {m : Manager} {raw : RawResize} {request : ResizeRequest} {w : Region}

theorem MovesTo.turns (hw : MovesTo picture s request w) : request.Turns picture.window w :=
  ⟨hw.hoffset, hw.voffset, hw.hsize, hw.vsize⟩

theorem moves_of_turns (hh : Holds h p picture s m) (hm : m.OnGrids) (hs : picture.MoveSigned request)
    (hg : request.OnGrid m.format) (ht : request.Turns picture.window w)
    (hright : w.right ≤ s.hsize) (hbottom : w.bottom ≤ s.vsize) : MovesTo picture s request w := by
  have hh' := ht.hoffset
  have hv' := ht.voffset
  have hfits : picture.MoveFits s request := by
    rw [Region.right, ht.hsize] at hright
    rw [Region.bottom, ht.vsize] at hbottom
    constructor <;> omega
  obtain ⟨w', hw'⟩ := moves_of_fits hh hm hs hfits hg
  exact ht.unique hw'.turns ▸ hw'

theorem sole_of_resize_grow (hn : normalizeResize p raw h = .ok request)
    (hr : resize p raw h = (.ok (), t)) (hk : request.kind = .grow) : h.refCount p = 1 := by
  by_contra hshared
  cases hr.symm.trans (resize_of_shared hn ⟨hk, hshared⟩)

theorem resize_of_moves (hh : Holds h p picture s m) (hn : normalizeResize p raw h = .ok request)
    (hk : request.kind = .grow → h.refCount p = 1) (hw : MovesTo picture s request w) :
    resize p raw h = (.ok (), h.setPicture p (some { picture with window := w })) := by
  have hsize : request.size = picture.visible s := by
    rw [(resolvesTo_of_normalize hh hn).before, ← hh.made.macropixel]
    rfl
  rw [resize_of_ok hn hk]
  rw [refCount_eq hh.picture?] at hk
  exact tryResize_of_moves hh.find hsize hk hw

theorem resize_eq_ok (hh : Holds h p picture s m) :
    resize p raw h = (.ok (), t) ↔ ∃ request w, normalizeResize p raw h = .ok request ∧
      MovesTo picture s request w ∧ (w.Inside picture.window ∨ h.refCount p = 1) ∧
        t = h.setPicture p (some { picture with window := w }) := by
  have hinside : ∀ {request w}, normalizeResize p raw h = .ok request →
      MovesTo picture s request w → (w.Inside picture.window ↔ request.kind = .shrink) := by
    intro request w hn hw
    have hq := resolvesTo_of_normalize hh hn
    exact hw.turns.inside_iff (by rw [hq.before]; exact ⟨rfl, rfl⟩) hq.signed
  constructor
  · intro hr
    obtain ⟨request, w, hn, hw, rfl⟩ := movesTo_of_resize hh hr
    refine ⟨request, w, hn, hw, ?_, rfl⟩
    rw [hinside hn hw]
    cases hk : request.kind with
    | shrink => exact .inl rfl
    | grow => exact .inr (sole_of_resize_grow hn hr hk)
  · rintro ⟨request, w, hn, hw, hallowed, rfl⟩
    rw [hinside hn hw] at hallowed
    refine resize_of_moves hh hn (fun hk => hallowed.resolve_left fun hshrink => ?_) hw
    cases hk.symm.trans hshrink

/-- The widest margin there is, and two more columns up to the next multiple of six. -/
def wideManager : Manager :=
  let format : PictureFormat := ⟨2, [⟨"y8", 1, 1, 1⟩, ⟨"u8", 3, 1, 1⟩]⟩
  .build format { format := .custom format, hprepend := Word.maxUnsigned }

/-- A margin that has wrapped around is off the grid, so that even a resize to the same size fails. -/
example : wideManager.hprepend = 2 ∧
    (resize (⟨0⟩ : Handle) ⟨0, 0, toEnd, toEnd⟩ (applyAll [.alloc wideManager 6 1] .empty)).1 =
      .error (.fault (.misaligned "hskip" 2 6)) := by decide +kernel

end Heap

end Planar
