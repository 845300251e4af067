import Planar.Proofs.Crop
import Planar.Proofs.Heap.Replacing
set_option autoImplicit false

/-!
Crops of packed images. A window that moves over blank margins and an overlap that is copied into
a blank picture show the same bytes, and off the grids there are none.
-/

namespace Planar

section

variable {format : PictureFormat} (hv : format.Valid) (hx : format.Exact) {f : PlaneFormat}
  (hf : f ∈ format.planes) (hc : format.macropixel.Coprime f.hsub)

include hv hx hf hc

theorem PictureFormat.unit_dvd {n : Nat} (hn : format.hgrid ∣ n) :
    f.hsub * format.macropixel ∣ n := by
  have hparts := (hgrid_dvd_iff hv hx n).mp hn
  exact Nat.Coprime.mul_dvd_of_dvd_of_dvd hc.symm (hparts.2 f hf) hparts.1

theorem PictureFormat.unit_dvd_skip {skip : Int} (hn : (format.hgrid : Int) ∣ skip) :
    ((f.hsub * format.macropixel : Nat) : Int) ∣ skip := by
  have hparts := ResizeRequest.dvd_origins.mpr hn
  exact ResizeRequest.dvd_origins.mp ⟨unit_dvd hv hx hf hc hparts.1, unit_dvd hv hx hf hc hparts.2⟩

theorem PictureFormat.width_pos {n : Nat} (hn : format.hgrid ∣ n) (hpos : 0 < n) :
    0 < f.width format.macropixel n := by
  have hunit := unit_dvd hv hx hf hc hn
  exact Nat.mul_pos (Nat.div_pos (Nat.le_of_dvd hpos hunit) (Nat.pos_of_dvd_of_pos hunit hpos))
    (hv.factors_pos f hf).2.2

end

namespace Heap

variable {h u : Heap} {p p' : Handle} {src dst picture : Picture} {s t : Storage} {m k : Manager}
  {f : PlaneFormat} {q : ResizeRequest} {raw : RawResize} {bytes : List UInt8}
  {parts : List (PlaneFormat × (Nat → Nat → UInt8))}

theorem Holds.onUnits (hh : Holds h p picture s m) (hx : m.Exact) (hf : f ∈ m.format.planes)
    (hc : m.format.macropixel.Coprime f.hsub) : f.OnUnits m.format.macropixel picture.window := by
  have hv := hh.manager.format
  have hw := hh.held.onGrid hx.toOnGrids
  have hhg : ∀ n, s.hgrid ∣ n → f.hsub * m.format.macropixel ∣ n := fun n hn =>
    PictureFormat.unit_dvd hv hx.format hf hc (hh.made.hgrid ▸ hn)
  have hvg : ∀ n, s.vgrid ∣ n → f.vsub ∣ n := fun n hn =>
    (PictureFormat.vgrid_dvd_iff hv hx.format n).mp (hh.made.vgrid ▸ hn) f hf
  exact ⟨hhg _ hw.hoffset, hvg _ hw.voffset, hhg _ hw.hsize, hvg _ hw.vsize⟩

/-- A picture that shows its parts in the window, with zeros around it. -/
structure Loaded (h : Heap) (p : Handle) (src : Picture) (s : Storage) (m : Manager)
    (parts : List (PlaneFormat × (Nat → Nat → UInt8))) : Prop where
  holds : Holds h p src s m
  sole : h.refs src.storage = 1
  planes : parts.map Prod.fst = m.format.planes
  bytes : ∀ part ∈ parts, ∀ y c, c < part.1.width m.format.macropixel s.hsize →
    s.byte part.1.chroma y c =
      (part.1.block m.format.macropixel src.window).paint part.2 (fun _ _ => 0) y c

structure Resized (h : Heap) (p : Handle) (picture : Picture) (s : Storage) (m : Manager)
    (q : ResizeRequest) (parts : List (PlaneFormat × (Nat → Nat → UInt8))) : Prop where
  holds : Holds h p picture s m
  hsize : picture.window.hsize = q.newHsize
  vsize : picture.window.vsize = q.newVsize
  shows : ∀ part ∈ parts, ∀ y c, y < part.1.rows q.newVsize →
    c < part.1.width m.format.macropixel q.newHsize →
      part.1.shows m.format.macropixel picture.window s.byte y c = part.1.moved q part.2 y c

theorem Loaded.mem (hl : Loaded h p src s m parts) {part : PlaneFormat × (Nat → Nat → UInt8)}
    (hp : part ∈ parts) : part.1 ∈ m.format.planes := by
  rw [← hl.planes]
  exact List.mem_map_of_mem hp

/-! ### In place -/

theorem resized_of_moves (hl : Loaded h p src s m parts) (hx : m.Exact)
    (hc : ∀ f ∈ m.format.planes, m.format.macropixel.Coprime f.hsub)
    (hs : q.size = ⟨src.window.hsize, src.window.vsize, m.format.macropixel⟩) {w : Region}
    (hw : MovesTo src s q w) :
    Resized (h.setPicture p (some { src with window := w })) p { src with window := w } s m q parts where
  holds := hl.holds.moves hw
  hsize := hw.hsize
  vsize := hw.vsize
  shows := by
    intro part hp y c hy hcol
    have hf := hl.mem hp
    unfold PlaneFormat.shows
    rw [hl.bytes part hp]
    · exact PlaneFormat.paint_of_window hs (hl.holds.onUnits hx hf (hc _ hf)) hw.hoffset hw.voffset y c
    · exact PlaneFormat.width_lt hw.onGrid.right (hw.hsize ▸ hcol)

/-! ### By a copy -/

theorem overlap_right (hh : Holds h p src s m) (hs : q.size.hsize = src.window.hsize)
    (hskip : q.hskip ≤ src.window.hsize) : (src.absolute q.overlap.src).right ≤ s.hsize := by
  have hshared : (ResizeRequest.origins q.hskip).2 +
      min (q.newHsize - (ResizeRequest.origins q.hskip).1)
        (src.window.hsize - (ResizeRequest.origins q.hskip).2) ≤ src.window.hsize :=
    ResizeRequest.shared_le_total hskip
  have hsrc : (src.absolute q.overlap.src).right = src.window.hoffset +
      ((ResizeRequest.origins q.hskip).2 + min (q.newHsize - (ResizeRequest.origins q.hskip).1)
        (q.size.hsize - (ResizeRequest.origins q.hskip).2)) := Nat.add_assoc ..
  rw [hsrc, hs]
  exact Nat.le_trans (Nat.add_le_add_left hshared _) hh.held.right

theorem resized_of_copy (hl : Loaded h p src s m parts) (hx : m.Exact)
    (hc : ∀ f ∈ m.format.planes, m.format.macropixel.Coprime f.hsub)
    (hs : q.size = ⟨src.window.hsize, src.window.vsize, m.format.macropixel⟩)
    (hskip : q.hskip ≤ src.window.hsize) (hg : q.OnGrid m.format)
    (hgrants : m.Grants q.newHsize q.newVsize)
    (ht : Holds u p (h.fresh m q.newHsize q.newVsize) t m)
    (hall : (m.blankStorage q.newHsize q.newVsize).PaintsAll t m
      ((h.fresh m q.newHsize q.newVsize).absolute q.overlap.dst)
        (copiedParts src s m q.overlap m.format.planes)) :
    Resized u p (h.fresh m q.newHsize q.newVsize) t m q parts where
  holds := ht
  hsize := rfl
  vsize := rfl
  shows := by
    intro part hp y c hy hcol
    have hf := hl.mem hp
    have hv := hl.holds.manager.format
    have hold := hl.holds.onUnits hx hf (hc _ hf)
    have hnew := ht.onUnits hx hf (hc _ hf)
    have hhskip := PictureFormat.unit_dvd_skip hv hx.format hf (hc _ hf) hg.hskip
    have hvskip := (PictureFormat.vgrid_dvd_skip_iff hv hx.format _).mp hg.vskip _ hf
    have hmem : (part.1, part.1.shows m.format.macropixel (src.absolute q.overlap.src) s.byte) ∈
        copiedParts src s m q.overlap m.format.planes := List.mem_map_of_mem hf
    have hright : (src.absolute q.overlap.src).right ≤ s.hsize :=
      overlap_right hl.holds (by rw [hs]) hskip
    have hcopied := hall.here _ hmem (part.1.rows (m.window q.newHsize q.newVsize).voffset + y)
      (part.1.width m.format.macropixel (m.window q.newHsize q.newVsize).hoffset + c)
      (PlaneFormat.width_lt (Manager.window_held hgrants).right hcol)
    rw [Manager.byte_blankStorage] at hcopied
    refine hcopied.trans (Eq.trans ?_
      (PlaneFormat.paint_of_copy hs hold hnew ⟨rfl, rfl⟩ hhskip hvskip hy hcol))
    refine Block.paint_congr (fun y' c' _ hc' => ?_) _ _ _
    exact hl.bytes part hp _ _ (PlaneFormat.width_lt (r := src.absolute q.overlap.src) hright hc')

theorem normalize_ofRegion (hh : Holds h p picture s m) (hf : f ∈ m.format.planes) {r : Region}
    (hs : picture.window.hsize ≤ Word.maxSigned ∧ picture.window.vsize ≤ Word.maxSigned)
    (hin : r.right ≤ picture.window.hsize ∧ r.bottom ≤ picture.window.vsize)
    (hpixels : m.format.macropixel ∣ r.hoffset ∧ m.format.macropixel ∣ r.hsize)
    (hsamples : r.OnSamples f.hsub f.vsub) :
    normalizeRegion p f.chroma (.ofRegion r) h = .ok r := by
  have hmax := Nat.max_eq_left hh.manager.format.macropixel_pos
  rw [hh.normalize_iff hf]
  refine ⟨RawRegion.resolve_ofRegion ⟨hin.1, hin.2, hs, ?_, ?_⟩, hsamples⟩
  · rw [hmax]
    exact hpixels.1
  · rw [hmax]
    exact hpixels.2

theorem cuts_of_dvd (ha : Apart h p p' src dst s t m k)
    (hold : src.window.Sampled m.format) (hfresh : dst.window.Sampled k.format)
    (hq : raw.ResolvesTo ⟨src.window.hsize, src.window.vsize, m.format.macropixel⟩ q)
    (hnew : dst.window.hsize = q.newHsize ∧ dst.window.vsize = q.newVsize)
    (hsigned : q.newHsize ≤ Word.maxSigned ∧ q.newVsize ≤ Word.maxSigned)
    (hskips : raw.hskip.natAbs ≤ Word.maxSigned ∧ raw.vskip.natAbs ≤ Word.maxSigned)
    (hm : k.format.macropixel = m.format.macropixel) (hf : f ∈ m.format.planes)
    (hf' : f ∈ k.format.planes) (hhskip : (f.hsub : Int) ∣ q.hskip) (hvskip : (f.vsub : Int) ∣ q.vskip)
    (hpos : 0 < f.width m.format.macropixel q.overlap.dst.hsize) : Cuts h p p' q.overlap m f := by
  have hcovers := hq.covers
  have hwithin := hq.within
  have hpixels := hq.macropixels
  have hpixels' := hq.macropixels'
  simp only [Word.negate, ← hq.hskip, ← hq.vskip] at hcovers hwithin hskips
  rw [Nat.max_eq_left ha.source.manager.format.macropixel_pos] at hpixels hpixels'
  rw [← hq.hskip] at hpixels
  have holdpixels := hold.macropixel
  have holdcolumns := hold.hsub f hf
  have holdrows := hold.vsub f hf
  have hcolumns := hfresh.hsub f hf'
  have hrows := hfresh.vsub f hf'
  rw [hnew.1] at hcolumns
  rw [hnew.2] at hrows
  have hsize : src.window.hsize = q.size.hsize ∧ src.window.vsize = q.size.vsize := by
    rw [hq.before]
    exact ⟨rfl, rfl⟩
  rw [hsize.1] at holdpixels holdcolumns
  rw [hsize.2] at holdrows
  -- macropixels only go along the columns
  have hcut := ResizeRequest.onSamples_overlap hhskip hvskip ⟨hcolumns, hrows⟩ ⟨holdcolumns, holdrows⟩
  have hcut' : q.overlap.src.OnSamples m.format.macropixel 1 ∧
      q.overlap.dst.OnSamples m.format.macropixel 1 :=
    ResizeRequest.onSamples_overlap hpixels (Int.one_dvd _) ⟨hpixels', Nat.one_dvd _⟩
      ⟨holdpixels, Nat.one_dvd _⟩
  obtain ⟨hinside, hinside'⟩ := ResizeRequest.overlap_inside (q := q)
    (by rw [← hsize.1, ← hsize.2]; exact hwithin) (by omega)
  rw [← hsize.1, ← hsize.2] at hinside
  rw [← hnew.1, ← hnew.2] at hinside' hsigned
  refine ⟨?_, ?_, rfl, rfl, hpos⟩
  · exact normalize_ofRegion ha.source hf hq.signed hinside ⟨hcut'.1.hoffset, hcut'.1.hsize⟩ hcut.1
  · exact normalize_ofRegion ha.destination hf' hsigned hinside'
      (hm ▸ ⟨hcut'.2.hoffset, hcut'.2.hsize⟩) hcut.2

theorem cuts_of_onGrid (hc : Pair h p p' src dst s t m) (hx : m.format.Exact)
    (hq : raw.ResolvesTo ⟨src.window.hsize, src.window.vsize, m.format.macropixel⟩ q)
    (hnew : dst.window.hsize = q.newHsize ∧ dst.window.vsize = q.newVsize)
    (hsigned : q.newHsize ≤ Word.maxSigned ∧ q.newVsize ≤ Word.maxSigned)
    (hskips : raw.hskip.natAbs ≤ Word.maxSigned ∧ raw.vskip.natAbs ≤ Word.maxSigned)
    (hg : q.OnGrid m.format) (hpos : 0 < q.overlap.dst.hsize) (hf : f ∈ m.format.planes)
    (hcop : m.format.macropixel.Coprime f.hsub) : Cuts h p p' q.overlap m f := by
  have hv := hc.source.manager.format
  have hsize : m.format.hgrid ∣ q.size.hsize := by
    rw [hq.before, ← hc.source.made.hgrid]
    exact hc.source.held.hsize
  have hoverlap : m.format.hgrid ∣ q.overlap.dst.hsize :=
    ResizeRequest.dvd_overlap hg.hskip hg.newHsize hsize
  have hcolumns := ((PictureFormat.hgrid_dvd_skip_iff hv hx _).mp hg.hskip).2 f hf
  have hrows := (PictureFormat.vgrid_dvd_skip_iff hv hx _).mp hg.vskip f hf
  exact cuts_of_dvd hc (hc.source.sampled hx) (hc.destination.sampled hx) hq hnew hsigned hskips rfl
    hf hf hcolumns hrows (PictureFormat.width_pos hv hx hf hcop hoverlap hpos)

/-! ### Either way -/

/-- On the grids a picture gets its new size, in place if it has the room, and shows its bytes
moved. -/
theorem resized_of_onGrid (hl : Loaded h p src s m parts) (hx : m.Exact)
    (hc : ∀ f ∈ m.format.planes, m.format.macropixel.Coprime f.hsub)
    (hq : raw.ResolvesTo ⟨src.window.hsize, src.window.vsize, m.format.macropixel⟩ q)
    (hg : q.OnGrid m.format) (hmove : src.MoveSigned q)
    (hsigned : q.newHsize ≤ Word.maxSigned ∧ q.newVsize ≤ Word.maxSigned)
    (hskips : raw.hskip.natAbs ≤ Word.maxSigned ∧ raw.vskip.natAbs ≤ Word.maxSigned)
    (hpos : 0 < q.overlap.dst.hsize)
    (hgrants : ¬ src.MoveFits s q → m.Grants q.newHsize q.newVsize) :
    ∃ path u picture t, resizeOrReplace m p raw h = (.ok path, u) ∧
      Resized u p picture t m q parts := by
  have hn := (normalizeResize_eq_ok hl.holds).mpr (RawResize.resolve_eq_ok.mpr hq)
  have hvisible : q.size = src.visible s := by
    rw [hq.before, ← hl.holds.made.macropixel]
    rfl
  have hrefs : h.refCount p = 1 := (refCount_eq hl.holds.picture?).trans hl.sole
  have hresize := resize_of_ok hn fun _ => hrefs
  by_cases hfits : src.MoveFits s q
  · obtain ⟨w, hw⟩ := moves_of_fits hl.holds hx.toOnGrids hmove hfits hg
    rw [tryResize_of_moves hl.holds.find hvisible (fun _ => hl.sole) hw] at hresize
    refine ⟨.inPlace, _, _, _, ?_, resized_of_moves hl hx hc hq.before hw⟩
    exact Op.bind_of_ok (Op.attempt_of_ok hresize)
  · obtain ⟨why, hwhy⟩ := Picture.moveWindow_of_leaves hmove hfits
    rw [tryResize_of_fault hl.holds (fun _ => hl.sole) hvisible hwhy] at hresize
    have hgrant := hgrants hfits
    obtain ⟨u, t, hreplace, ht, hall⟩ := replace_of_cuts hl.holds hn (by rw [hq.before]) hgrant
      fun f hf => cuts_of_onGrid (pair_fresh hl.holds hgrant) hx.format hq ⟨rfl, rfl⟩ hsigned hskips hg
        hpos hf (hc f hf)
    refine ⟨.copied, u, _, t, ?_,
      resized_of_copy hl hx hc hq.before (hq.hskip ▸ hq.within.1) hg hgrant ht hall⟩
    refine (Op.bind_of_ok (Op.attempt_of_fault hresize)).trans ?_
    exact Op.bind_of_ok hreplace

end Heap

end Planar
