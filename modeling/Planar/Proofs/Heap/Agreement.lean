import Planar.Proofs.Heap.Crashes
set_option autoImplicit false

/-!
Two ways to one picture. A window that moves over the margins and a copy that was taken before show
the same rows where the old picture and the new one overlap.
-/

namespace Planar

theorem PlaneFormat.collect_congr {f : PlaneFormat} {macropixel : Nat} {r r' : Region}
    {see see' : String → Nat → Nat → UInt8} (hh : r.hsize = r'.hsize) (hv : r.vsize = r'.vsize)
    (hs : ∀ y c, y < f.rows r.vsize → c < f.width macropixel r.hsize →
      f.shows macropixel r see y c = f.shows macropixel r' see' y c) :
    f.collect macropixel r see = f.collect macropixel r' see' := by
  unfold collect
  rw [← hh, ← hv]
  apply List.map_congr_left
  intro y hy
  apply List.map_congr_left
  intro c hc
  exact hs y c (List.mem_range.mp hy) (List.mem_range.mp hc)

namespace Heap

variable {makers : List Manager} {h t u : Heap} {p c : Handle} {src dst : Picture} {s s' : Storage}
  {m k : Manager} {f : PlaneFormat} {raw : RawResize} {request : ResizeRequest} {w : Region}

/-! ### The copy -/

structure Copied (t : Heap) (p c : Handle) (src dst : Picture) (s s' : Storage) (m k : Manager)
    (request : ResizeRequest) : Prop where
  apart : Apart t p c src dst s s' m k
  hsize : dst.window.hsize = request.newHsize
  vsize : dst.window.vsize = request.newVsize
  formats : Request request m k
  joins : ∀ f ∈ m.format.planes, JoinsAt t p c request.overlap f.chroma
  planes : ∀ f ∈ m.format.planes, f ∈ k.format.planes
  shows : ∀ f ∈ m.format.planes,
    f.collect k.format.macropixel (dst.absolute request.overlap.dst) s'.byte =
      f.collect m.format.macropixel (src.absolute request.overlap.src) s.byte

theorem copied_of_fillCopy (ha : Apart h p c src dst s s' m k) (hq : Request request m k)
    (hsize : dst.window.hsize = request.newHsize) (hvsize : dst.window.vsize = request.newVsize)
    (hsigned : request.overlap.src.Signed ∧ request.overlap.dst.Signed)
    (hc : fillCopy p c request h = (.ok c, t)) :
    ∃ s'', Copied t p c src dst s s'' m k request ∧
      s'.PaintsAll s'' k (dst.absolute request.overlap.dst)
        (copiedParts src s m request.overlap m.format.planes) ∧
      s'.SameAround s'' (dst.absolute request.overlap.dst) := by
  have hloop := hc
  rw [fillCopy_of_macropixel ha hq] at hloop
  obtain ⟨_, u, hloop, hdone⟩ := Op.bind_eq_ok.mp hloop
  cases hdone
  have hpasses := Op.forM_passes _ (rounds_copyInto ha hq hsigned) ⟨Kept.refl h, s', ha⟩ hloop
  have hj : ∀ f ∈ m.format.planes, JoinsAt h p c request.overlap f.chroma := by
    intro f hf
    apply hpasses
    rw [ha.source.chromas]
    exact List.mem_map_of_mem hf
  have hkept := (fillCopy_keeps ha hq.macropixel (Op.not_crashes_of_ok hc)).kept
  rw [hc] at hkept
  obtain ⟨s'', hrun, hall, haround⟩ := fillCopy_of_joinsAt ha hq hj
  cases hc.symm.trans hrun
  refine ⟨s'', ⟨ha.store hall.made hall.hsize hall.vsize, hsize, hvsize, hq,
    fun f hf => hkept.joinsAt_iff.mpr (hj f hf), fun f hf => ?_, fun f hf => ?_⟩, hall, haround⟩
  · exact (copyInto_of_joinsAt ha hq hf (hj f hf)).1
  · have hpart : (f, f.shows m.format.macropixel (src.absolute request.overlap.src) s.byte) ∈
        copiedParts src s m request.overlap m.format.planes := List.mem_map_of_mem hf
    rw [← hq.macropixel'] at hpart ⊢
    refine PlaneFormat.collect_congr rfl rfl fun y x hy hx => ?_
    exact hall.shows ha.destination.made
      (ha.destination.absolute_right (hj f hf).1.destination) hpart hy hx

/-- What a copy is: the fresh picture of the request, blank but for the overlap. -/
theorem filled_of_copy (hh : Holds h p src s m) (hk : k.Sound)
    (hskip : raw.hskip.natAbs ≤ Word.maxSigned ∧ raw.vskip.natAbs ≤ Word.maxSigned)
    (hc : copy k p raw h = (.ok c, t)) :
    ∃ request s', normalizeResize p raw h = .ok request ∧
      k.Grants request.newHsize request.newVsize ∧ c = h.next ∧
        Copied t p h.next src (h.fresh k request.newHsize request.newVsize) s s' m k request ∧
        (k.blankStorage request.newHsize request.newVsize).PaintsAll s' k
          ((h.fresh k request.newHsize request.newVsize).absolute request.overlap.dst)
          (copiedParts src s m request.overlap m.format.planes) ∧
        (k.blankStorage request.newHsize request.newVsize).SameAround s'
          ((h.fresh k request.newHsize request.newVsize).absolute request.overlap.dst) := by
  obtain ⟨request, hn, hg, rfl, hq, hfill⟩ := request_of_copy hh hk hc
  obtain ⟨s', hdone⟩ := copied_of_fillCopy (apart_fresh hh hk hg) hq rfl rfl
    (signed_of_normalizeResize hh hskip hn) hfill
  exact ⟨request, s', hn, hg, rfl, hdone⟩

theorem copied_of_copy (hh : Holds h p src s m) (hk : k.Sound)
    (hskip : raw.hskip.natAbs ≤ Word.maxSigned ∧ raw.vskip.natAbs ≤ Word.maxSigned)
    (hc : copy k p raw h = (.ok c, t)) :
    ∃ request dst s', normalizeResize p raw h = .ok request ∧
      Copied t p c src dst s s' m k request := by
  obtain ⟨request, s', hn, -, rfl, hcopied, -⟩ := filled_of_copy hh hk hskip hc
  exact ⟨request, _, s', hn, hcopied⟩

/-! ### The moved window -/

theorem absolute_of_moves (hw : MovesTo src s request w) :
    ({ src with window := w } : Picture).absolute request.overlap.dst =
      src.absolute request.overlap.src := by
  have hh := ResizeRequest.origins_sub request.hskip
  have hv := ResizeRequest.origins_sub request.vskip
  have hleft := hw.hoffset
  have htop := hw.voffset
  simp only [Picture.absolute, ResizeRequest.overlap, Region.mk.injEq, and_true]
  omega

theorem Holds.normalize_congr {q : Handle} (hh : Holds h p src s m) (ht : Holds t q dst s' k)
    (hf : f ∈ m.format.planes) (hf' : f ∈ k.format.planes) {raw : RawRegion} {r : Region}
    (hh' : dst.window.hsize = src.window.hsize) (hv' : dst.window.vsize = src.window.vsize)
    (hm : k.format.macropixel = m.format.macropixel) :
    normalizeRegion q f.chroma raw t = .ok r ↔ normalizeRegion p f.chroma raw h = .ok r := by
  rw [hh.normalize_iff hf, ht.normalize_iff hf', hh', hv', hm]

theorem Copied.normalize (hc : Copied t p c src dst s s' m k request) (hw : MovesTo src s request w)
    (hf : f ∈ m.format.planes) :
    normalizeRegion p f.chroma (.ofRegion request.overlap.dst)
        (t.setPicture p (some { src with window := w })) = .ok request.overlap.dst ∧
      normalizeRegion c f.chroma (.ofRegion request.overlap.dst)
        (t.setPicture p (some { src with window := w })) = .ok request.overlap.dst := by
  have hf' := hc.planes f hf
  have hdst := (hc.joins f hf).1.destination
  have hmoved := hc.apart.source.moves hw
  have hcopy := hc.apart.destination.setPicture_ne hc.apart.handles (some { src with window := w })
  constructor
  · exact (hc.apart.destination.normalize_congr hmoved hf' hf (hw.hsize.trans hc.hsize.symm)
      (hw.vsize.trans hc.vsize.symm) hc.formats.macropixel'.symm).mpr hdst
  · exact (hc.apart.destination.normalize_congr hcopy hf' hf' rfl rfl rfl).mpr hdst

theorem Copied.reads_overlap (hc : Copied t p c src dst s s' m k request) (hh : Holds h p src s m)
    (hf : f ∈ m.format.planes) :
    let rows := f.collect m.format.macropixel (src.absolute request.overlap.src) s.byte
    h.Reads p f.chroma (.ofRegion request.overlap.src) rows ∧
      t.Reads c f.chroma (.ofRegion request.overlap.dst) rows := by
  obtain ⟨hjoins, htorn⟩ := hc.joins f hf
  rw [JoinTorn, not_or] at htorn
  have hold := (hc.apart.source.normalize_congr hh hf hf rfl rfl rfl).mpr hjoins.source
  constructor
  · exact reads_of_whole hh hf hold (mt (tornAt_congr hc.apart.source.find hh.find rfl rfl).mp htorn.1)
  · rw [← hc.shows f hf]
    exact reads_of_whole hc.apart.destination (hc.planes f hf) hjoins.destination htorn.2

theorem Copied.reads (hc : Copied t p c src dst s s' m k request) (hh : Holds h p src s m)
    (hw : MovesTo src s request w) (hf : f ∈ m.format.planes) :
    let rows := f.collect m.format.macropixel (src.absolute request.overlap.src) s.byte
    h.Reads p f.chroma (.ofRegion request.overlap.src) rows ∧
      (t.setPicture p (some { src with window := w })).Reads p f.chroma
        (.ofRegion request.overlap.dst) rows ∧
      (t.setPicture p (some { src with window := w })).Reads c f.chroma
        (.ofRegion request.overlap.dst) rows := by
  obtain ⟨-, htorn⟩ := hc.joins f hf
  rw [JoinTorn, not_or] at htorn
  have hsource := hc.apart.source
  have hdestination := hc.apart.destination
  have hmoved := hsource.moves hw
  have hcopy := hdestination.setPicture_ne hc.apart.handles (some { src with window := w })
  obtain ⟨hnew, hcopied⟩ := hc.normalize hw hf
  refine ⟨(hc.reads_overlap hh hf).1, ?_, ?_⟩
  · rw [← absolute_of_moves hw]
    exact reads_of_whole hmoved hf hnew
      (mt (tornAt_congr hsource.find hmoved.find rfl rfl).mp htorn.1)
  · rw [← hc.shows f hf]
    exact reads_of_whole hcopy (hc.planes f hf) hcopied
      (mt (tornAt_congr hdestination.find hcopy.find rfl rfl).mp htorn.2)

/-! ### Packed images of both -/

theorem Reads.congr {chroma : String} {raw raw' : RawRegion} {r : Region} {rows : List (List UInt8)}
    (hn : normalizeRegion p chroma raw h = .ok r) (hn' : normalizeRegion p chroma raw' h = .ok r)
    (hr : h.Reads p chroma raw rows) : h.Reads p chroma raw' rows := by
  unfold Reads planeRead at *
  simp only [Op.bind_run, Op.ask_run, hn, hn'] at *
  exact hr

section

variable {q : Handle} (hp : Holds h p src s m) (hq : Holds h q dst s' k)
  (hshown : shown dst k = shown src m) (hplanes : Heap.planes q h = Heap.planes p h)

include hp hq hshown

theorem foldlM_addPlane_congr (fs : List PlaneFormat) (hf : ∀ f ∈ fs, f ∈ m.format.planes)
    (hf' : ∀ f ∈ fs, f ∈ k.format.planes) (total : Nat) :
    (fs.map PlaneFormat.chroma).foldlM (addPlane q (dst.visible s') h) total =
      (fs.map PlaneFormat.chroma).foldlM (addPlane p (src.visible s) h) total := by
  induction fs generalizing total with
  | nil => rfl
  | cons f fs ih =>
    rw [List.map_cons, List.foldlM_cons, List.foldlM_cons,
      addPlane_of_holds hp (hf f List.mem_cons_self), addPlane_of_holds hq (hf' f List.mem_cons_self),
      hshown]
    refine bind_congr fun n => ih (fun g hg => hf g (List.mem_cons_of_mem f hg))
      (fun g hg => hf' g (List.mem_cons_of_mem f hg)) n

include hplanes

theorem packedLen_congr (hf : ∀ f ∈ m.format.planes, f ∈ k.format.planes) :
    packedLen q h = packedLen p h := by
  have hsum := foldlM_addPlane_congr hp hq hshown m.format.planes (fun _ hf => hf) hf 0
  unfold packedLen
  simp only [Buffers.size, size_of_find hp.find, size_of_find hq.find, bind, Except.bind,
    Buffers.planes, hplanes, hp.chromas]
  exact hsum

/-- Pictures that show the same have the same packed image, or none for the same reason. -/
theorem writePacked_congr (hf : ∀ f ∈ m.format.planes, f ∈ k.format.planes)
    {rows : PlaneFormat → List (List UInt8)}
    (hr : ∀ f ∈ m.format.planes, h.Reads p f.chroma .full (rows f))
    (hr' : ∀ f ∈ m.format.planes, h.Reads q f.chroma .full (rows f)) :
    (writePacked q h).1 = (writePacked p h).1 := by
  have hlen := packedLen_congr hp hq hshown hplanes hf
  obtain ⟨n, hn⟩ | ⟨why, hn⟩ := Stop.ok_or_fault (packedLen_ne_crash hp)
  · by_cases hsmall : n ≤ Word.maxSigned
    · rw [writePacked_of_reads m.format.planes hp hp.chromas hr hn hsmall,
        writePacked_of_reads m.format.planes hq (hplanes.trans hp.chromas) hr' (hlen.trans hn) hsmall]
    · have hlarge := Nat.lt_of_not_le hsmall
      exact (writePacked_of_large (hlen.trans hn) hlarge).trans (writePacked_of_large hn hlarge).symm
  · rw [writePacked_of_fault hn, writePacked_of_fault (hlen.trans hn)]

end

theorem Copied.writePacked (hc : Copied t p c src dst s s' m k request)
    (hsize : request.size.hsize ≤ Word.maxSigned ∧ request.size.vsize ≤ Word.maxSigned)
    (hh : Holds h p src s m) (hw : MovesTo src s request w) (hkind : request.kind = .shrink)
    (hplanes : Heap.planes c (t.setPicture p (some { src with window := w })) =
      Heap.planes p (t.setPicture p (some { src with window := w }))) :
    (Planar.writePacked c (t.setPicture p (some { src with window := w }))).1 =
      (Planar.writePacked p (t.setPicture p (some { src with window := w }))).1 := by
  have hmoved := hc.apart.source.moves hw
  have hcopy := hc.apart.destination.setPicture_ne hc.apart.handles (some { src with window := w })
  obtain ⟨hdst, -⟩ := ResizeRequest.overlap_of_shrink hsize hkind
  have hshown : shown dst k = shown { src with window := w } m := by
    simp [shown, hc.hsize, hc.vsize, hw.hsize, hw.vsize, hc.formats.macropixel']
  -- the copy went through, so that all planes can be cut along the overlap, and that is everything
  have hfull : ∀ f ∈ m.format.planes, normalizeRegion p f.chroma .full
      (t.setPicture p (some { src with window := w })) = .ok request.overlap.dst := by
    intro f hf
    have hcut := (hc.normalize hw hf).1
    rw [hdst, ← hw.hsize, ← hw.vsize] at hcut ⊢
    exact full_of_normalize hmoved hf hcut
  have hfull' : ∀ f ∈ m.format.planes, normalizeRegion c f.chroma .full
      (t.setPicture p (some { src with window := w })) = .ok request.overlap.dst := by
    intro f hf
    have hcut := (hc.normalize hw hf).2
    rw [hdst, ← hc.hsize, ← hc.vsize] at hcut ⊢
    exact full_of_normalize hcopy (hc.planes f hf) hcut
  refine writePacked_congr hmoved hcopy hshown hplanes hc.planes
    (fun f hf => (hc.reads hh hw hf).2.1.congr (hc.normalize hw hf).1 (hfull f hf))
    fun f hf => (hc.reads hh hw hf).2.2.congr (hc.normalize hw hf).2 (hfull' f hf)

theorem moves_of_resize (hh : Holds h p src s m) (hn : normalizeResize p raw h = .ok request)
    (hc : Copied t p c src dst s s' m k request) (hr : resize p raw t = (.ok (), u)) :
    ∃ w, MovesTo src s request w ∧ u = t.setPicture p (some { src with window := w }) := by
  obtain ⟨request', w, hn', hw, rfl⟩ := movesTo_of_resize hc.apart.source hr
  -- the size is still the one of the first request
  cases ((normalizeResize_eq_ok hc.apart.source).mp hn').symm.trans ((normalizeResize_eq_ok hh).mp hn)
  exact ⟨w, hw, rfl⟩

/-- A picture that is resized in place and a copy that was taken with the same request have one size,
and where old and new overlap both show the rows of the old picture. After a shrink that is all of
them, so that the packed images are the same if the planes have the same names in the same order. -/
theorem resize_agrees_with_copy (hr : Reachable makers h) (hk : k.Built)
    (hskip : raw.hskip.natAbs ≤ Word.maxSigned ∧ raw.vskip.natAbs ≤ Word.maxSigned)
    (hcopy : copy k p raw h = (.ok c, t)) (hresize : resize p raw t = (.ok (), u)) :
    ∃ request, normalizeResize p raw h = .ok request ∧
      u.size p = .ok ⟨request.newHsize, request.newVsize, request.size.macropixel⟩ ∧
      u.size c = u.size p ∧
      (∀ chroma ∈ h.planes p, ∃ rows, h.Reads p chroma (.ofRegion request.overlap.src) rows ∧
        u.Reads p chroma (.ofRegion request.overlap.dst) rows ∧
          u.Reads c chroma (.ofRegion request.overlap.dst) rows) ∧
      (request.kind = .shrink →
        request.overlap.dst = ⟨0, 0, request.newHsize, request.newVsize⟩ ∧
          (u.planes c = u.planes p → (writePacked c u).1 = (writePacked p u).1)) := by
  obtain ⟨stop, hfail⟩ | ⟨src, -, -, hp, -⟩ := copy_cases k p raw h
  · cases hfail.symm.trans hcopy
  obtain ⟨s, m, hh⟩ := hr.sound.holds hp
  obtain ⟨request, dst, s', hn, hc⟩ := copied_of_copy hh hk.sound hskip hcopy
  obtain ⟨w, hw, rfl⟩ := moves_of_resize hh hn hc hresize
  have hmoved := hc.apart.source.moves hw
  have hcopied := hc.apart.destination.setPicture_ne hc.apart.handles (some { src with window := w })
  have hsigned := (RawResize.resolve_eq_ok.mp ((normalizeResize_eq_ok hh).mp hn)).signed
  have hbefore := (RawResize.resolve_eq_ok.mp ((normalizeResize_eq_ok hh).mp hn)).before
  have hsize := size_of_find hmoved.find
  have hsize' := size_of_find hcopied.find
  simp only [Picture.visible, hw.hsize, hw.vsize, hmoved.made.macropixel] at hsize
  simp only [Picture.visible, hc.hsize, hc.vsize, hcopied.made.macropixel, hc.formats.macropixel'] at hsize'
  refine ⟨request, hn, hsize.trans (by rw [hc.formats.macropixel]), hsize'.trans hsize.symm, ?_, ?_⟩
  · intro chroma hchroma
    rw [hh.chromas] at hchroma
    obtain ⟨f, hf, rfl⟩ := List.mem_map.mp hchroma
    exact ⟨_, hc.reads hh hw hf⟩
  · intro hkind
    rw [← hbefore] at hsigned
    exact ⟨(ResizeRequest.overlap_of_shrink hsigned hkind).1, hc.writePacked hsigned hh hw hkind⟩

theorem tallGray_agrees :
    let copied := (copy grayManager (⟨0⟩ : Handle) ⟨1, 0, 2, toEnd⟩ tallGray).2
    let resized := (resize (⟨0⟩ : Handle) ⟨1, 0, 2, toEnd⟩ copied).2
    (writePacked (⟨1⟩ : Handle) resized).1 = (writePacked (⟨0⟩ : Handle) resized).1 := by
  have hbuilt : grayManager.Built := legal_of_gray (a := .alloc grayManager 4 2) (.inl rfl) _ rfl
  have hcopy : copy grayManager (⟨0⟩ : Handle) ⟨1, 0, 2, toEnd⟩ tallGray =
      (.ok ⟨1⟩, (copy grayManager (⟨0⟩ : Handle) ⟨1, 0, 2, toEnd⟩ tallGray).2) :=
    Prod.ext (eq_ok_of_toOption (by decide +kernel)) rfl
  have hresize : resize (⟨0⟩ : Handle) ⟨1, 0, 2, toEnd⟩
        (copy grayManager (⟨0⟩ : Handle) ⟨1, 0, 2, toEnd⟩ tallGray).2 =
      (.ok (), (resize (⟨0⟩ : Handle) ⟨1, 0, 2, toEnd⟩
        (copy grayManager (⟨0⟩ : Handle) ⟨1, 0, 2, toEnd⟩ tallGray).2).2) :=
    Prod.ext (eq_ok_of_toOption (by decide +kernel)) rfl
  obtain ⟨request, hn, -, -, -, hshrink⟩ :=
    resize_agrees_with_copy reachable_tallGray hbuilt (by decide) hcopy hresize
  have hrequest : normalizeResize (⟨0⟩ : Handle) ⟨1, 0, 2, toEnd⟩ tallGray =
      .ok ⟨1, 0, 2, 2, ⟨4, 2, 1⟩⟩ := eq_ok_of_toOption (by decide +kernel)
  cases hrequest.symm.trans hn
  exact (hshrink (by decide)).2 (by decide +kernel)

/-! ### Copies with more planes -/

def colorManager : Manager := .build .yuv420p { format := .preset "yuv420p" }

/-- A cropped gray picture and its copy in color have one size and the same luma, but the copy has
chroma to write as well. -/
theorem colored_copy_disagrees :
    let copied := (copy colorManager (⟨0⟩ : Handle) ⟨0, 0, 2, 2⟩ tallGray).2
    let resized := (resize (⟨0⟩ : Handle) ⟨0, 0, 2, 2⟩ copied).2
    Reachable [grayManager] tallGray ∧ colorManager.Built ∧
      (copy colorManager (⟨0⟩ : Handle) ⟨0, 0, 2, 2⟩ tallGray).1 = .ok ⟨1⟩ ∧
      (resize (⟨0⟩ : Handle) ⟨0, 0, 2, 2⟩ copied).1 = .ok () ∧
      normalizeResize (⟨0⟩ : Handle) ⟨0, 0, 2, 2⟩ tallGray = .ok ⟨0, 0, 2, 2, ⟨4, 2, 1⟩⟩ ∧
      (⟨0, 0, 2, 2, ⟨4, 2, 1⟩⟩ : ResizeRequest).kind = .shrink ∧
      (writePacked (⟨0⟩ : Handle) resized).1 = .ok (List.replicate 4 0) ∧
      (writePacked (⟨1⟩ : Handle) resized).1 = .ok (List.replicate 6 0) := by
  have hconfig : Manager.ofConfig { format := .preset "yuv420p" } = .ok colorManager := rfl
  exact ⟨reachable_tallGray, .ofConfig Word.maxSigned hconfig, eq_ok_of_toOption (by decide +kernel),
    eq_ok_of_toOption (by decide +kernel), eq_ok_of_toOption (by decide +kernel), by decide,
    eq_ok_of_toOption (by decide +kernel), eq_ok_of_toOption (by decide +kernel)⟩

end Heap

end Planar
