import Planar.Proofs.Heap.Handles
import Planar.Proofs.Region
set_option autoImplicit false

/-!
Mappings, writes and moves of the window: when each succeeds, what it changes, and that a sound
heap stays one. What fails leaves no trace.
-/

namespace Planar.Heap

variable {h : Heap} {p : Handle} {picture : Picture} {s : Storage} {plane : PlaneStore}
  {span : Span} {view : View} {chroma : String} {region : Region}

/-! ### Mappings -/

theorem mapRead_of_ok (hf : h.find p = .ok (picture, s))
    (hl : picture.locate s chroma region = .ok (plane, span))
    (hv : Picture.view plane span = .ok view) :
    mapRead p chroma region h = (.ok view, h.setMapped p picture (picture.mapped + 1)) := by
  unfold mapRead
  simp only [Op.bind_run, Op.ask_run, Op.lift_run, Except.mapError_ok, hf, hl, hv]
  rfl

theorem mapRead_cases (p : Handle) (chroma : String) (region : Region) (h : Heap) :
    (∃ stop, mapRead p chroma region h = (.error stop, h)) ∨
      ∃ picture s plane span view, h.find p = .ok (picture, s) ∧
        picture.locate s chroma region = .ok (plane, span) ∧ Picture.view plane span = .ok view ∧
          mapRead p chroma region h = (.ok view, h.setMapped p picture (picture.mapped + 1)) := by
  cases hf : h.find p with
  | error stop =>
    refine .inl ⟨stop, ?_⟩
    simp only [mapRead, Op.bind_run, Op.ask_run, hf]
  | ok found =>
    obtain ⟨picture, s⟩ := found
    cases hl : picture.locate s chroma region with
    | error why =>
      refine .inl ⟨.fault why, ?_⟩
      simp only [mapRead, Op.bind_run, Op.ask_run, Op.lift_run, Except.mapError_error, hf, hl]
    | ok located =>
      obtain ⟨plane, span⟩ := located
      cases hv : Picture.view plane span with
      | error why =>
        refine .inl ⟨.fault why, ?_⟩
        simp only [mapRead, Op.bind_run, Op.ask_run, Op.lift_run, Except.mapError_ok,
          Except.mapError_error, hf, hl, hv]
      | ok view =>
        exact .inr ⟨picture, s, plane, span, view, rfl, hl, hv, mapRead_of_ok hf hl hv⟩

theorem mapWrite_of_ok (hf : h.find p = .ok (picture, s))
    (hl : picture.locate s chroma region = .ok (plane, span)) (hr : h.refs picture.storage = 1)
    (hv : Picture.view plane span = .ok view) :
    mapWrite p chroma region h = (.ok view, h.setMapped p picture (picture.mapped + 1)) := by
  unfold mapWrite
  simp only [Op.bind_run, Op.ask_run, Op.lift_run, Op.check_run, Except.mapError_ok, hf, hl, hv, hr]
  rfl

theorem mapWrite_of_shared (hf : h.find p = .ok (picture, s))
    (hl : picture.locate s chroma region = .ok (plane, span)) (hr : h.refs picture.storage ≠ 1) :
    mapWrite p chroma region h = (.error (.fault (.notExclusive (h.refs picture.storage))), h) := by
  unfold mapWrite
  simp only [Op.bind_run, Op.ask_run, Op.lift_run, Op.check_run, Except.mapError_ok, hf, hl]
  rw [if_pos hr]

theorem mapWrite_cases (p : Handle) (chroma : String) (region : Region) (h : Heap) :
    (∃ stop, mapWrite p chroma region h = (.error stop, h)) ∨
      ∃ picture s plane span view, h.find p = .ok (picture, s) ∧
        picture.locate s chroma region = .ok (plane, span) ∧ h.refs picture.storage = 1 ∧
          Picture.view plane span = .ok view ∧
            mapWrite p chroma region h = (.ok view, h.setMapped p picture (picture.mapped + 1)) := by
  cases hf : h.find p with
  | error stop =>
    refine .inl ⟨stop, ?_⟩
    simp only [mapWrite, Op.bind_run, Op.ask_run, hf]
  | ok found =>
    obtain ⟨picture, s⟩ := found
    cases hl : picture.locate s chroma region with
    | error why =>
      refine .inl ⟨.fault why, ?_⟩
      simp only [mapWrite, Op.bind_run, Op.ask_run, Op.lift_run, Except.mapError_error, hf, hl]
    | ok located =>
      obtain ⟨plane, span⟩ := located
      by_cases hr : h.refs picture.storage = 1
      · cases hv : Picture.view plane span with
        | error why =>
          refine .inl ⟨.fault why, ?_⟩
          simp only [mapWrite, Op.bind_run, Op.ask_run, Op.lift_run, Op.check_run,
            Except.mapError_ok, Except.mapError_error, hf, hl, hv, hr]
          rfl
        | ok view =>
          exact .inr ⟨picture, s, plane, span, view, rfl, hl, hr, hv, mapWrite_of_ok hf hl hr hv⟩
      · exact .inl ⟨_, mapWrite_of_shared hf hl hr⟩

theorem unmap_of_ok (hf : h.find p = .ok (picture, s))
    (hl : picture.locate s chroma region = .ok (plane, span)) (hm : picture.mapped ≠ 0) :
    unmap p chroma region h = (.ok (), h.setMapped p picture (picture.mapped - 1)) := by
  unfold unmap
  simp only [Op.bind_run, Op.ask_run, Op.lift_run, Except.mapError_ok, hf, hl, hm, if_false]
  rfl

theorem unmap_cases (p : Handle) (chroma : String) (region : Region) (h : Heap) :
    (∃ stop, unmap p chroma region h = (.error stop, h)) ∨
      ∃ picture s, h.find p = .ok (picture, s) ∧
        unmap p chroma region h = (.ok (), h.setMapped p picture (picture.mapped - 1)) := by
  cases hf : h.find p with
  | error stop =>
    refine .inl ⟨stop, ?_⟩
    simp only [unmap, Op.bind_run, Op.ask_run, hf]
  | ok found =>
    obtain ⟨picture, s⟩ := found
    cases hl : picture.locate s chroma region with
    | error why =>
      refine .inl ⟨.fault why, ?_⟩
      simp only [unmap, Op.bind_run, Op.ask_run, Op.lift_run, Except.mapError_error, hf, hl]
    | ok located =>
      by_cases hm : picture.mapped = 0
      · refine .inl ⟨.fault (.invalid (.notMapped chroma)), ?_⟩
        simp only [unmap, Op.bind_run, Op.ask_run, Op.lift_run, Op.throw_run, Except.mapError_ok, hf,
          hl, hm, if_true]
      · exact .inr ⟨picture, s, rfl, unmap_of_ok hf hl hm⟩

theorem works_mapRead (p : Handle) (chroma : String) (region : Region) (h : Heap) :
    Works (· = p) Nobody h (mapRead p chroma region h).2 := by
  obtain ⟨stop, hr⟩ | ⟨picture, s, plane, span, view, hf, -, -, hr⟩ := mapRead_cases p chroma region h
  · rw [hr]
    exact Op.Tracking.refl h
  · rw [hr]
    exact works_setMapped (find_eq_ok.mp hf).1 _

theorem works_mapWrite (p : Handle) (chroma : String) (region : Region) (h : Heap) :
    Works (· = p) Nobody h (mapWrite p chroma region h).2 := by
  obtain ⟨stop, hr⟩ | ⟨picture, s, plane, span, view, hf, -, -, -, hr⟩ :=
    mapWrite_cases p chroma region h
  · rw [hr]
    exact Op.Tracking.refl h
  · rw [hr]
    exact works_setMapped (find_eq_ok.mp hf).1 _

theorem works_unmap (p : Handle) (chroma : String) (region : Region) (h : Heap) :
    Works (· = p) Nobody h (unmap p chroma region h).2 := by
  obtain ⟨stop, hr⟩ | ⟨picture, s, hf, hr⟩ := unmap_cases p chroma region h
  · rw [hr]
    exact Op.Tracking.refl h
  · rw [hr]
    exact works_setMapped (find_eq_ok.mp hf).1 _

/-! ### Writes -/

def Owns (p : Handle) (h : Heap) : Prop :=
  ∃ picture, h.picture? p = some picture ∧ h.refs picture.storage = 1

theorem owns_of_mapWrite {t : Heap} (hw : mapWrite p chroma region h = (.ok view, t)) :
    t.Owns p := by
  obtain ⟨stop, hr⟩ | ⟨picture, s, plane, span, v, hf, -, hrefs, -, hr⟩ :=
    mapWrite_cases p chroma region h
  · rw [hr] at hw
    cases hw
  · rw [hr] at hw
    cases hw
    have hp := (find_eq_ok.mp hf).1
    exact ⟨_, picture?_setPicture_self h p _ (slot_lt hp), hrefs⟩

theorem commit_of_ok (hf : h.find p = .ok (picture, s))
    (hl : picture.locate s chroma region = .ok (plane, span)) (view : View) :
    h.commit p chroma region view = h.mapStorage picture.storage fun s =>
      { s with planes := Storage.writePlane chroma span.offset view s.planes } := by
  unfold commit
  simp only [hf, hl]
  rfl

theorem works_commit (ho : h.Owns p) (chroma : String) (region : Region) (view : View) :
    Works Nobody (· = p) h (h.commit p chroma region view) := by
  obtain ⟨picture, hp, hr⟩ := ho
  cases hf : h.find p with
  | error stop =>
    unfold commit
    rw [hf]
    exact Op.Tracking.refl h
  | ok found =>
    obtain ⟨picture', s⟩ := found
    obtain rfl : picture = picture' := Option.some.inj (hp.symm.trans (find_eq_ok.mp hf).1)
    cases hl : picture.locate s chroma region with
    | error why =>
      unfold commit
      simp only [hf, hl]
      exact Op.Tracking.refl h
    | ok located =>
      rw [commit_of_ok hf hl]
      exact works_mapStorage hp hr (fun s m hs => hs.write ..) fun s m w hw => hw.write _

/-! ### Moves of the window -/

/-- What a request makes of a window, if it may go there. -/
structure MovesTo (picture : Picture) (s : Storage) (request : ResizeRequest) (w : Region) :
    Prop where
  hoffset : (w.hoffset : Int) = picture.window.hoffset + request.hskip
  voffset : (w.voffset : Int) = picture.window.voffset + request.vskip
  hsize : w.hsize = request.newHsize
  vsize : w.vsize = request.newVsize
  signed : picture.window.hoffset ≤ Word.maxSigned ∧ picture.window.voffset ≤ Word.maxSigned
  signed' : w.hoffset ≤ Word.maxSigned ∧ w.voffset ≤ Word.maxSigned
  onGrid : w.OnGrid s

theorem moveWindow_eq_ok {request : ResizeRequest} {w : Region} :
    picture.moveWindow s request = .ok w ↔ MovesTo picture s request w := by
  unfold Picture.moveWindow
  simp only [check_eq_ok, guard_eq_ok, Except.bind_eq_ok, Bool.or_eq_true, decide_eq_true_eq,
    Bool.not_eq_true', Bool.not_eq_false, not_or, Decidable.not_not, pure, Except.pure,
    Except.ok.injEq, Region.fits_iff, exists_const,
    ← Nat.dvd_iff_mod_eq_zero]
  constructor
  · intro hgiven
    obtain ⟨hs, hn, hfit, hho, hvo, hhs, hvs, rfl⟩ := hgiven
    exact ⟨by simp; omega, by simp; omega, rfl, rfl, by omega, by simp; omega,
      ⟨hfit.1, hfit.2, hho, hvo, hhs, hvs⟩⟩
  · intro hgiven
    obtain ⟨hho, hvo, hhs, hvs, hs, hs', hg⟩ := hgiven
    obtain ⟨ho, vo, hsize, vsize⟩ := w
    simp only at hho hvo hhs hvs hs'
    subst hhs hvs
    rw [← hho, ← hvo]
    simp only [Int.toNat_natCast]
    exact ⟨by omega, by omega, ⟨hg.right, hg.bottom⟩, hg.hoffset, hg.voffset, hg.hsize, hg.vsize, trivial⟩

variable {request : ResizeRequest} {w : Region}

theorem tryResize_of_moves (hf : h.find p = .ok (picture, s))
    (hsize : request.size = picture.visible s)
    (hr : request.kind = .grow → h.refs picture.storage = 1) (hm : MovesTo picture s request w) :
    tryResize p request h = (.ok (), h.setPicture p (some { picture with window := w })) := by
  have hc : ¬ (request.kind = .grow ∧ h.refs picture.storage ≠ 1) := fun hc => hc.2 (hr hc.1)
  unfold tryResize
  simp only [Op.bind_run, Op.ask_run, Op.lift_run, Op.check_run, Except.mapError_ok, hf,
    moveWindow_eq_ok.mpr hm]
  rw [if_neg (by simpa using hsize), if_neg hc]
  rfl

theorem tryResize_cases (p : Handle) (request : ResizeRequest) (h : Heap) :
    (∃ stop, tryResize p request h = (.error stop, h)) ∨
      ∃ picture s w, h.find p = .ok (picture, s) ∧ MovesTo picture s request w ∧
        tryResize p request h = (.ok (), h.setPicture p (some { picture with window := w })) := by
  cases hf : h.find p with
  | error stop =>
    refine .inl ⟨stop, ?_⟩
    simp only [tryResize, Op.bind_run, Op.ask_run, hf]
  | ok found =>
    obtain ⟨picture, s⟩ := found
    by_cases hsize : request.size = picture.visible s
    · by_cases hr : request.kind = .grow ∧ h.refs picture.storage ≠ 1
      · refine .inl ⟨.fault (.notExclusive (h.refs picture.storage)), ?_⟩
        simp only [tryResize, Op.bind_run, Op.ask_run, Op.check_run, hf]
        rw [if_neg (by simpa using hsize), if_pos hr]
      · cases hm : picture.moveWindow s request with
        | error why =>
          refine .inl ⟨.fault why, ?_⟩
          simp only [tryResize, Op.bind_run, Op.ask_run, Op.lift_run, Op.check_run,
            Except.mapError_error, hf, hm]
          rw [if_neg (by simpa using hsize), if_neg hr]
        | ok w =>
          have hmoves := moveWindow_eq_ok.mp hm
          refine .inr ⟨picture, s, w, rfl, hmoves, tryResize_of_moves hf hsize (fun hk => ?_) hmoves⟩
          exact Decidable.not_not.mp fun hne => hr ⟨hk, hne⟩
    · refine .inl ⟨.fault (.invalid (.staleRequest request.size (picture.visible s))), ?_⟩
      simp only [tryResize, Op.bind_run, Op.ask_run, Op.check_run, hf]
      rw [if_pos hsize]

theorem works_tryResize (p : Handle) (request : ResizeRequest) (h : Heap) :
    Works (· = p) Nobody h (tryResize p request h).2 := by
  obtain ⟨stop, hr⟩ | ⟨picture, s, w, hf, hm, hr⟩ := tryResize_cases p request h
  · rw [hr]
    exact Op.Tracking.refl h
  · rw [hr]
    obtain ⟨hp, hi⟩ := find_eq_ok.mp hf
    refine works_setPicture hp rfl fun s' m hi' _ => ?_
    obtain rfl : s = s' := Option.some.inj (hi.symm.trans hi')
    exact hm.onGrid.held m

end Planar.Heap
