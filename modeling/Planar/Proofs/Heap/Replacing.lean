import Planar.Proofs.Heap.Copying
import Planar.Proofs.Resize
set_option autoImplicit false

/-!
New sizes for a picture: its window moves over the margins, or a fresh picture with the shared part
takes its place.
-/

namespace Planar

theorem Manager.byte_blankStorage (m : Manager) (hsize vsize : Nat) (chroma : String) :
    (m.blankStorage hsize vsize).byte chroma = fun _ _ => 0 := by
  funext y c
  unfold Storage.byte
  split
  · rename_i p hp
    obtain ⟨f, -, rfl⟩ := List.mem_map.mp (Storage.mem_of_plane? hp).1
    unfold PlaneStore.byte Bytes.byte
    rw [Manager.blankPlane, Array.getElem?_replicate]
    split <;> rfl
  · rfl

/-- Skips and sizes between the cuts that a format allows. -/
structure ResizeRequest.OnGrid (q : ResizeRequest) (format : PictureFormat) : Prop where
  hskip : (format.hgrid : Int) ∣ q.hskip
  vskip : (format.vgrid : Int) ∣ q.vskip
  newHsize : format.hgrid ∣ q.newHsize
  newVsize : format.vgrid ∣ q.newVsize

namespace Picture

structure MoveFits (picture : Picture) (s : Storage) (q : ResizeRequest) : Prop where
  left : 0 ≤ (picture.window.hoffset : Int) + q.hskip
  top : 0 ≤ (picture.window.voffset : Int) + q.vskip
  right : (picture.window.hoffset : Int) + q.hskip + q.newHsize ≤ s.hsize
  bottom : (picture.window.voffset : Int) + q.vskip + q.newVsize ≤ s.vsize

structure MoveSigned (picture : Picture) (q : ResizeRequest) : Prop where
  old : picture.window.hoffset ≤ Word.maxSigned ∧ picture.window.voffset ≤ Word.maxSigned
  moved : (picture.window.hoffset : Int) + q.hskip ≤ Word.maxSigned ∧
    (picture.window.voffset : Int) + q.vskip ≤ Word.maxSigned

theorem moveWindow_of_leaves {picture : Picture} {s : Storage} {q : ResizeRequest}
    (hs : picture.MoveSigned q) (hf : ¬ picture.MoveFits s q) :
    ∃ why, picture.moveWindow s q = .error (.unsupported why) := by
  have hold := hs.old
  have hmoved := hs.moved
  unfold moveWindow
  simp only
  rw [if_neg (by simp; omega)]
  split
  · exact ⟨_, rfl⟩
  · rename_i hstart
    simp only [Bool.or_eq_true, decide_eq_true_eq, not_or, Int.not_lt] at hstart
    rw [if_pos]
    · exact ⟨_, rfl⟩
    · rw [Bool.not_eq_true', Bool.eq_false_iff]
      intro hin
      obtain ⟨hright, hbottom⟩ := Region.fits_iff.mp hin
      simp only [Region.right, Region.bottom, Storage.allocated] at hright hbottom
      exact hf ⟨hstart.1, hstart.2, by omega, by omega⟩

end Picture

namespace Heap

variable {h u : Heap} {p : Handle} {src : Picture} {s : Storage} {m : Manager} {raw : RawResize}
  {request : ResizeRequest} {hsize vsize : Nat}

/-! ### Fresh pictures -/

def fresh (h : Heap) (m : Manager) (hsize vsize : Nat) : Picture :=
  ⟨h.storages.size, m.window hsize vsize, 0⟩

theorem picture?_withBlank (q : Handle) : (h.withBlank m hsize vsize).picture? q =
    if q = h.next then some (h.fresh m hsize vsize) else h.picture? q := by
  have hslot : q.slot = h.pictures.size ↔ q = h.next := by
    cases q
    simp [next]
  unfold withBlank
  rw [picture?_allocate]
  simp only [hslot]
  rfl

theorem refs_withBlank (i : Nat) :
    (h.withBlank m hsize vsize).refs i = if i = h.storages.size then 1 else h.refs i :=
  refs_allocate ..

theorem holds_fresh (h : Heap) (hm : m.Sound) (hg : m.Grants hsize vsize) :
    Holds (h.withBlank m hsize vsize) h.next (h.fresh m hsize vsize) (m.blankStorage hsize vsize) m
    where
  find := find_allocate_self ..
  manager := hm
  made := Manager.madeBy_blankStorage hm hg
  held := Manager.window_held hg

theorem refs_fresh : (h.withBlank m hsize vsize).refs (h.fresh m hsize vsize).storage = 1 :=
  (refs_withBlank _).trans (if_pos rfl)

theorem apart_fresh (hh : Holds h p src s m) {k : Manager} (hk : k.Sound)
    (hg : k.Grants hsize vsize) :
    Apart (h.withBlank k hsize vsize) p h.next src (h.fresh k hsize vsize) s
      (k.blankStorage hsize vsize) m k where
  source := ⟨find_allocate _ _ hh.find, hh.manager, hh.made, hh.held⟩
  destination := holds_fresh h hk hg
  handles := (ne_of_live hh.picture?).symm
  storages := Nat.ne_of_gt (stored?_lt hh.stored?)
  sole := refs_fresh

theorem pair_fresh (hh : Holds h p src s m) (hg : m.Grants hsize vsize) :
    Pair (h.withBlank m hsize vsize) p h.next src (h.fresh m hsize vsize) s
      (m.blankStorage hsize vsize) m :=
  apart_fresh hh hh.manager hg

theorem normalizeResize_eq_ok (hh : Holds h p src s m) :
    normalizeResize p raw h = .ok request ↔
      raw.resolve ⟨src.window.hsize, src.window.vsize, m.format.macropixel⟩ = .ok request := by
  have hsize : src.visible s = ⟨src.window.hsize, src.window.vsize, m.format.macropixel⟩ := by
    rw [← hh.made.macropixel]
    rfl
  unfold normalizeResize
  simp only [Buffers.size, size_of_find hh.find, hsize]
  exact Stop.lift_eq_ok

theorem resolvesTo_of_normalize (hh : Holds h p src s m)
    (hn : normalizeResize p raw h = .ok request) :
    raw.ResolvesTo ⟨src.window.hsize, src.window.vsize, m.format.macropixel⟩ request :=
  RawResize.resolve_eq_ok.mp ((normalizeResize_eq_ok hh).mp hn)

/-! ### Copies that take over -/

theorem replace_eq_ok : replace m p raw h = (.ok (), u) ↔
    ∃ t, copy m p raw h = (.ok h.next, t) ∧ u = t.succeed p h.next := by
  constructor
  · intro hr
    obtain ⟨q, t, hc, hlast⟩ := Op.bind_eq_ok.mp hr
    obtain ⟨request, -, -, rfl, -⟩ := copy_eq_ok.mp hc
    cases hlast
    exact ⟨t, hc, rfl⟩
  · intro hgiven
    obtain ⟨t, hc, rfl⟩ := hgiven
    exact replace_of_ok hc

theorem replace_of_cuts (hh : Holds h p src s m) (hn : normalizeResize p raw h = .ok request)
    (hm : request.size.macropixel = m.format.macropixel)
    (hg : m.Grants request.newHsize request.newVsize)
    (hk : ∀ f ∈ m.format.planes, Cuts (h.withBlank m request.newHsize request.newVsize) p h.next
      request.overlap m f) :
    ∃ u t, replace m p raw h = (.ok (), u) ∧
      Holds u p (h.fresh m request.newHsize request.newVsize) t m ∧
        (m.blankStorage request.newHsize request.newVsize).PaintsAll t m
          ((h.fresh m request.newHsize request.newVsize).absolute request.overlap.dst)
            (copiedParts src s m request.overlap m.format.planes) := by
  have hc := pair_fresh hh hg
  obtain ⟨t, hfill, hall, -⟩ := fillCopy_of_cuts hc hm hk
  have ht := hc.destination.store hall.made hall.hsize hall.vsize
  refine ⟨((h.withBlank m request.newHsize request.newVsize).store h.storages.size t).succeed p h.next,
    t, ?_, ⟨?_, hh.manager, ht.made, ht.held⟩, hall⟩
  · exact replace_of_ok (copy_eq_ok.mpr ⟨request, hn, hg, rfl, hfill⟩)
  · exact find_succeed_self hc.handles hc.source.picture? ht.find

/-! ### Moves of the window -/

theorem moves_of_fits (hh : Holds h p src s m) (hm : m.OnGrids) (hs : src.MoveSigned request)
    (hf : src.MoveFits s request) (hg : request.OnGrid m.format) : ∃ w, MovesTo src s request w := by
  have hw := hh.held.onGrid hm
  have hhoffset := Int.toNat_of_nonneg hf.left
  have hvoffset := Int.toNat_of_nonneg hf.top
  have hright := hf.right
  have hbottom := hf.bottom
  have hmoved := hs.moved
  refine ⟨⟨((src.window.hoffset : Int) + request.hskip).toNat,
    ((src.window.voffset : Int) + request.vskip).toNat, request.newHsize, request.newVsize⟩,
    hhoffset, hvoffset, rfl, rfl, hs.old, ?_, ?_, ?_, ?_, ?_, ?_, ?_⟩
  · simp only
    omega
  · simp only [Region.right]
    omega
  · simp only [Region.bottom]
    omega
  · rw [hh.made.hgrid, ← Int.natCast_dvd_natCast, hhoffset]
    exact Int.dvd_add (Int.natCast_dvd_natCast.mpr (hh.made.hgrid ▸ hw.hoffset)) hg.hskip
  · rw [hh.made.vgrid, ← Int.natCast_dvd_natCast, hvoffset]
    exact Int.dvd_add (Int.natCast_dvd_natCast.mpr (hh.made.vgrid ▸ hw.voffset)) hg.vskip
  · exact hh.made.hgrid ▸ hg.newHsize
  · exact hh.made.vgrid ▸ hg.newVsize

theorem Holds.moves (hh : Holds h p src s m) {w : Region} (hw : MovesTo src s request w) :
    Holds (h.setPicture p (some { src with window := w })) p { src with window := w } s m :=
  ⟨find_eq_ok.mpr ⟨picture?_setPicture_self h p _ (slot_lt hh.picture?), hh.stored?⟩, hh.manager,
    hh.made, hw.onGrid.held m⟩

theorem onGrid_of_moves (hh : Holds h p src s m) (hm : m.OnGrids) {w : Region}
    (hw : MovesTo src s request w) : request.OnGrid m.format := by
  have hold := hh.held.onGrid hm
  have hnew := hw.onGrid
  have hskip : request.hskip = w.hoffset - src.window.hoffset := by have := hw.hoffset; omega
  have vskip : request.vskip = w.voffset - src.window.voffset := by have := hw.voffset; omega
  refine ⟨?_, ?_, ?_, ?_⟩
  · rw [hskip, ← hh.made.hgrid]
    exact Int.dvd_sub (Int.natCast_dvd_natCast.mpr hnew.hoffset)
      (Int.natCast_dvd_natCast.mpr hold.hoffset)
  · rw [vskip, ← hh.made.vgrid]
    exact Int.dvd_sub (Int.natCast_dvd_natCast.mpr hnew.voffset)
      (Int.natCast_dvd_natCast.mpr hold.voffset)
  · rw [← hw.hsize, ← hh.made.hgrid]
    exact hnew.hsize
  · rw [← hw.vsize, ← hh.made.vgrid]
    exact hnew.vsize

theorem resize_of_ok (hn : normalizeResize p raw h = .ok request)
    (hr : request.kind = .grow → h.refCount p = 1) : resize p raw h = tryResize p request h := by
  have hc : ¬ (request.kind = .grow ∧ h.refCount p ≠ 1) := fun hc => hc.2 (hr hc.1)
  unfold resize
  simp only [Op.bind_run, Op.ask_run, hn, Op.check_run, Buffers.refCount, Buffers.tryResize]
  rw [if_neg hc]

theorem resize_of_shared (hn : normalizeResize p raw h = .ok request)
    (hr : request.kind = .grow ∧ h.refCount p ≠ 1) :
    resize p raw h = (.error (.fault (.notExclusive (h.refCount p))), h) := by
  unfold resize
  simp only [Op.bind_run, Op.ask_run, hn, Op.check_run, Buffers.refCount]
  rw [if_pos hr]

theorem tryResize_of_fault (hh : Holds h p src s m) (hr : request.kind = .grow → h.refs src.storage = 1)
    (hsize : request.size = src.visible s) {why : Fault} (hw : src.moveWindow s request = .error why) :
    tryResize p request h = (.error (.fault why), h) := by
  have hc : ¬ (request.kind = .grow ∧ h.refs src.storage ≠ 1) := fun hc => hc.2 (hr hc.1)
  unfold tryResize
  simp only [Op.bind_run, Op.ask_run, Op.lift_run, Op.check_run, Except.mapError_error, hh.find, hw]
  rw [if_neg (by simpa using hsize), if_neg hc]

theorem of_resize_eq_ok (hr : resize p raw h = (.ok (), u)) :
    ∃ request, normalizeResize p raw h = .ok request ∧ tryResize p request h = (.ok (), u) := by
  obtain ⟨request, t, hn, hrest⟩ := Op.bind_eq_ok.mp hr
  obtain ⟨refs, v, hrefs, hlast⟩ := Op.bind_eq_ok.mp hrest
  obtain ⟨hn, rfl⟩ := Op.ask_eq_ok hn
  obtain ⟨-, rfl⟩ := Op.ask_eq_ok hrefs
  rw [Op.check_run] at hlast
  split at hlast
  · cases hlast
  · exact ⟨request, hn, hlast⟩

theorem movesTo_of_resize (hh : Holds h p src s m) (hr : resize p raw h = (.ok (), u)) :
    ∃ request w, normalizeResize p raw h = .ok request ∧ MovesTo src s request w ∧
      u = h.setPicture p (some { src with window := w }) := by
  obtain ⟨request, hn, hmove⟩ := of_resize_eq_ok hr
  obtain ⟨stop, hfail⟩ | ⟨picture, s', w, hf, hw, hdone⟩ := tryResize_cases p request h
  · cases hfail.symm.trans hmove
  · cases hh.find.symm.trans hf
    cases hdone.symm.trans hmove
    exact ⟨request, w, hn, hw, rfl⟩

theorem resize_of_error {stop : Stop} (hr : resize p raw h = (.error stop, u)) : u = h := by
  unfold resize at hr
  simp only [Op.bind_run, Op.ask_run, Op.check_run] at hr
  cases hn : normalizeResize p raw h with
  | error why =>
    rw [hn] at hr
    cases hr
    rfl
  | ok request =>
    simp only [hn] at hr
    split at hr
    · cases hr
      rfl
    · obtain ⟨stop', hfail⟩ | ⟨picture, s, w, -, -, hdone⟩ := tryResize_cases p request h
      · cases hfail.symm.trans hr
        rfl
      · cases hdone.symm.trans hr

/-! ### Either way -/

theorem resizeOrReplace_of_ok (hr : resize p raw h = (.ok (), u)) :
    resizeOrReplace m p raw h = (.ok .inPlace, u) :=
  Op.bind_of_ok (Op.attempt_of_ok hr)

theorem resizeOrReplace_of_fault {why : Fault} (hr : resize p raw h = (.error (.fault why), u)) :
    resizeOrReplace m p raw h = if why.isParameter = true then (.error (.fault why), h)
      else (replace m p raw >>= fun _ => pure ResizePath.copied) h := by
  obtain rfl := resize_of_error hr
  unfold resizeOrReplace
  rw [Op.bind_of_ok (Op.attempt_of_fault hr)]
  exact Op.check_run _ (fun _ => replace m p raw >>= fun _ => pure ResizePath.copied) _ u

theorem resizeOrReplace_of_crash (hr : resize p raw h = (.error .crash, u)) :
    resizeOrReplace m p raw h = (.error .crash, u) := by
  have hattempt : (resize p raw).attempt h = (.error .crash, u) := by
    unfold Op.attempt
    rw [hr]
  exact Op.bind_of_error hattempt

theorem resizeOrReplace_eq_ok {path : ResizePath} :
    resizeOrReplace m p raw h = (.ok path, u) ↔
      (path = .inPlace ∧ resize p raw h = (.ok (), u)) ∨
        (path = .copied ∧ (∃ why, resize p raw h = (.error (.fault why), h) ∧ why.isParameter = false) ∧
          replace m p raw h = (.ok (), u)) := by
  cases hr : resize p raw h with
  | mk result t =>
    cases result with
    | ok _ =>
      rw [resizeOrReplace_of_ok hr]
      constructor
      · intro hrun
        cases hrun
        exact .inl ⟨rfl, rfl⟩
      · rintro (⟨rfl, hrun⟩ | ⟨-, ⟨why, hrun, -⟩, -⟩)
        · cases hrun
          rfl
        · cases hrun
    | error stop =>
      obtain rfl := resize_of_error hr
      cases stop with
      | crash =>
        rw [resizeOrReplace_of_crash hr]
        exact iff_of_false nofun fun hrun => hrun.elim nofun nofun
      | fault why =>
        rw [resizeOrReplace_of_fault hr]
        cases hwhy : why.isParameter with
        | true =>
          refine iff_of_false nofun ?_
          rintro (⟨-, hrun⟩ | ⟨-, ⟨why', hrun, hwhy'⟩, -⟩)
          · cases hrun
          · cases hrun
            cases hwhy.symm.trans hwhy'
        | false =>
          constructor
          · intro hrun
            obtain ⟨_, v, hreplace, hdone⟩ := Op.bind_eq_ok.mp hrun
            cases hdone
            exact .inr ⟨rfl, ⟨why, rfl, hwhy⟩, hreplace⟩
          · rintro (⟨-, hrun⟩ | ⟨rfl, -, hreplace⟩)
            · cases hrun
            · exact Op.bind_of_ok hreplace

theorem resizeOrReplace_cases {path : ResizePath} (hr : resizeOrReplace m p raw h = (.ok path, u)) :
    resize p raw h = (.ok (), u) ∨ replace m p raw h = (.ok (), u) :=
  (resizeOrReplace_eq_ok.mp hr).imp And.right fun h => h.2.2

theorem normalize_of_resizeOrReplace {path : ResizePath}
    (hr : resizeOrReplace m p raw h = (.ok path, u)) :
    ∃ request, normalizeResize p raw h = .ok request := by
  rcases resizeOrReplace_cases hr with hresize | hreplace
  · obtain ⟨request, hn, -⟩ := of_resize_eq_ok hresize
    exact ⟨request, hn⟩
  · obtain ⟨t, hcopy, -⟩ := replace_eq_ok.mp hreplace
    obtain ⟨request, hn, -⟩ := copy_eq_ok.mp hcopy
    exact ⟨request, hn⟩

end Heap

end Planar
