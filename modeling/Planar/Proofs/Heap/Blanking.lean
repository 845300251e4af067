import Planar.Proofs.Heap.Clearing
import Planar.Proofs.Heap.Admission
import Planar.Proofs.Heap.Packing
import Planar.Proofs.Heap.Pixels
set_option autoImplicit false

/-!
What a blank region shows. Every plane has its own pattern there, from the start of each row to its end,
and all other bytes are as they were.
-/

namespace Planar

namespace PlaneFormat

def fill (f : PlaneFormat) : List UInt8 :=
  (Chroma.neutralFill f.chroma f.macropixelSize).toOption.getD []

def blank (f : PlaneFormat) (_ c : Nat) : UInt8 := f.fill[c % f.fill.length]?.getD 0

variable {f : PlaneFormat} {fill : List UInt8} {macropixel : Nat} {window : Region}
  {see : String → Nat → Nat → UInt8}

theorem fill_eq (h : Chroma.neutralFill f.chroma f.macropixelSize = .ok fill) : f.fill = fill := by
  unfold PlaneFormat.fill
  rw [h]
  rfl

theorem collect_blank (hfill : Chroma.neutralFill f.chroma f.macropixelSize = .ok fill)
    (hb : ∀ y c, y < f.rows window.vsize → c < f.width macropixel window.hsize →
      f.shows macropixel window see y c = f.blank y c) :
    f.collect macropixel window see = List.replicate (f.rows window.vsize)
      (List.replicate (f.width macropixel window.hsize / f.macropixelSize) fill).flatten := by
  obtain ⟨hlen, -⟩ := Chroma.length_neutralFill hfill
  have htiles : f.width macropixel window.hsize % fill.length = 0 := by
    rw [hlen, width, Nat.mul_mod_left]
  have hrow := View.patternRow_eq htiles
  unfold View.patternRow at hrow
  rw [hlen] at hrow
  rw [hrow, ← List.length_range (n := f.rows window.vsize), ← List.map_const']
  apply List.map_congr_left
  intro y hy
  apply List.map_congr_left
  intro c hc
  rw [List.mem_range] at hy hc
  rw [hb y c hy hc, blank, fill_eq hfill, hlen]

end PlaneFormat

namespace Heap

variable {makers : List Manager} {h t : Heap} {p : Handle} {picture : Picture} {s s₁ s' : Storage}
  {m : Manager} {f : PlaneFormat} {fs : List PlaneFormat} {chroma : String} {raw : RawRegion}
  {r q : Region}

/-! ### Planes that go blank -/

def blankParts (fs : List PlaneFormat) : List (PlaneFormat × (Nat → Nat → UInt8)) :=
  fs.map fun f => (f, f.blank)

theorem chroma_blankParts (fs : List PlaneFormat) :
    (blankParts fs).map (·.1.chroma) = fs.map PlaneFormat.chroma := by
  simp [blankParts]

structure Blanks (h : Heap) (picture : Picture) (s s' : Storage) (m : Manager) (r : Region)
    (f : PlaneFormat) : Prop where
  kept : Kept h (h.store picture.storage s')
  paints : s.Paints s' m f (f.block m.format.macropixel (picture.absolute r)) f.blank
  rest : s.SameBut s' [f.chroma] (picture.absolute r)

structure BlanksAll (h : Heap) (picture : Picture) (s s' : Storage) (m : Manager) (r : Region)
    (fs : List PlaneFormat) : Prop where
  kept : Kept h (h.store picture.storage s')
  paints : s.PaintsAll s' m (picture.absolute r) (blankParts fs)
  rest : s.SameBut s' (fs.map PlaneFormat.chroma) (picture.absolute r)

theorem BlanksAll.nil (hh : Holds h p picture s m) (r : Region) : BlanksAll h picture s s m r [] where
  kept := by
    rw [store_self hh.stored?]
    exact Kept.refl h
  paints := .nil hh.made
  rest := .refl s _ _

theorem BlanksAll.cons (hh : Holds h p picture s m) (hfirst : Blanks h picture s s₁ m r f)
    (hb : BlanksAll (h.store picture.storage s₁) picture s₁ s' m r fs)
    (hn : f.chroma ∉ fs.map PlaneFormat.chroma) : BlanksAll h picture s s' m r (f :: fs) where
  kept := by
    have hlast := hb.kept
    rw [store_store] at hlast
    exact hfirst.kept.trans hlast
  paints := by
    have hparts : f.chroma ∉ (blankParts fs).map (·.1.chroma) := by
      rw [chroma_blankParts]
      exact hn
    exact .cons hh.made hfirst.paints hb.paints hparts
  rest := hfirst.rest.trans hb.rest

theorem BlanksAll.holds (hb : BlanksAll h picture s s' m r fs) (hh : Holds h p picture s m) :
    Holds (h.store picture.storage s') p picture s' m :=
  hh.store hb.paints.made hb.paints.hsize hb.paints.vsize

theorem clearPlane_blanks (hh : Holds h p picture s m) (hf : f ∈ m.format.planes)
    (hc : Clears h p raw f.chroma r) (ht : ¬ h.TornAt p f.chroma r) :
    ∃ s', clearPlane p raw f.chroma h = (.ok (), h.store picture.storage s') ∧
      Blanks h picture s s' m r f := by
  obtain ⟨plane, v, hformat, hmap⟩ := exists_formatMapping hh hf hc.region
  obtain ⟨fill, w, hfill, hpaint, hrun⟩ :=
    clearPlane_of_whole hh hc hmap (hmap.whole (mt (tornAt_iff hh.find hmap).mpr ht))
  refine ⟨_, hrun, kept_store_write hh.stored? .., ?_, hmap.sameBut hpaint⟩
  have hpaints := hmap.paints hh.manager hh.made hpaint
  have hsize : plane.desc.macropixelSize = f.macropixelSize := by rw [← hformat]; rfl
  rw [hsize] at hfill
  rw [hformat, hh.made.macropixel] at hpaints
  have hblank : f.blank = fun _ c => fill[c % fill.length]?.getD 0 := by
    funext y c
    rw [PlaneFormat.blank, PlaneFormat.fill_eq hfill]
  exact hblank ▸ hpaints

theorem forM_clearPlane (fs : List PlaneFormat) (hh : Holds h p picture s m)
    (hf : ∀ f ∈ fs, f ∈ m.format.planes) (hn : (fs.map PlaneFormat.chroma).Nodup)
    (hc : ∀ f ∈ fs, Clears h p raw f.chroma r ∧ ¬ h.TornAt p f.chroma r) :
    ∃ s', (fs.map PlaneFormat.chroma).forM (clearPlane p raw) h =
        (.ok (), h.store picture.storage s') ∧ BlanksAll h picture s s' m r fs := by
  -- one plane after another. What was checked of the planes that are left is still true
  induction fs generalizing h s with
  | nil =>
    refine ⟨s, ?_, .nil hh r⟩
    rw [store_self hh.stored?]
    rfl
  | cons f fs ih =>
    rw [List.map_cons, List.nodup_cons] at hn
    obtain ⟨hfin, hfsin⟩ := List.forall_mem_cons.mp hf
    obtain ⟨⟨hclears, hwhole⟩, hcs⟩ := List.forall_mem_cons.mp hc
    obtain ⟨s₁, hrun, hfirst⟩ := clearPlane_blanks hh hfin hclears hwhole
    have hafter := hh.store hfirst.paints.made hfirst.paints.hsize hfirst.paints.vsize
    obtain ⟨s', hrun', hb⟩ := ih hafter hfsin hn.2 fun g hg =>
      ⟨hfirst.kept.clears_iff.mpr (hcs g hg).1, mt hfirst.kept.tornAt_iff.mp (hcs g hg).2⟩
    rw [store_store] at hrun'
    exact ⟨s', (Op.bind_of_ok hrun).trans hrun', .cons hh hfirst hb hn.1⟩

/-! ### What is there now -/

/-- In the region of the plane, each row is its neutral macropixel over and over, a whole number of
times. -/
def ShowsBlank (h : Heap) (p : Handle) (raw : RawRegion) (chroma : String) (r : Region) : Prop :=
  ∃ size desc fill, h.size p = .ok size ∧ h.planeDesc p chroma = .ok desc ∧
    Chroma.neutralFill chroma desc.macropixelSize = .ok fill ∧
    desc.macropixelSize ∣ desc.rowBytes r.hsize size.macropixel ∧
    h.Reads p chroma raw (List.replicate (desc.rows r.vsize)
      (List.replicate (desc.rowBytes r.hsize size.macropixel / desc.macropixelSize) fill).flatten)

/-- The region is blank in some planes. Beside it, and in other planes, there is nothing new. -/
structure Blanked (h t : Heap) (p : Handle) (raw : RawRegion) (chromas : List String)
    (picture : Picture) (s s' : Storage) (r : Region) : Prop where
  before : h.find p = .ok (picture, s)
  after : t.find p = .ok (picture, s')
  heap : t = h.store picture.storage s'
  refCount : t.refCount p = h.refCount p
  region : ∀ chroma ∈ chromas, normalizeRegion p chroma raw h = .ok r
  shows : ∀ chroma ∈ chromas, t.ShowsBlank p raw chroma r
  rest : s.SameBut s' chromas (picture.absolute r)

section

variable (hb : BlanksAll h picture s s' m r fs) (hh : Holds h p picture s m) (hf : f ∈ fs)
  (hin : f ∈ m.format.planes) (hc : Clears h p raw f.chroma r) (ht : ¬ h.TornAt p f.chroma r)

include hb hh hf hin hc ht

theorem BlanksAll.reads {fill : List UInt8}
    (hfill : Chroma.neutralFill f.chroma f.macropixelSize = .ok fill) :
    (h.store picture.storage s').Reads p f.chroma raw (List.replicate (f.rows r.vsize)
      (List.replicate (f.width m.format.macropixel r.hsize / f.macropixelSize) fill).flatten) := by
  have hregion := (hb.kept.clears_iff.mpr hc).region
  have hshown := reads_of_whole (hb.holds hh) hin hregion (mt hb.kept.tornAt_iff.mp ht)
  have hbytes : ∀ y c, y < f.rows (picture.absolute r).vsize →
      c < f.width m.format.macropixel (picture.absolute r).hsize →
        f.shows m.format.macropixel (picture.absolute r) s'.byte y c = f.blank y c :=
    fun y c hy hcol =>
      hb.paints.shows hh.made (hh.absolute_right hc.region) (List.mem_map_of_mem hf) hy hcol
  rw [PlaneFormat.collect_blank hfill hbytes] at hshown
  exact hshown

theorem BlanksAll.showsBlank : (h.store picture.storage s').ShowsBlank p raw f.chroma r := by
  have hafter := hb.holds hh
  have hclears := hb.kept.clears_iff.mpr hc
  obtain ⟨plane, v, hformat, hmap⟩ := exists_formatMapping hafter hin hclears.region
  have hdesc := planeDesc_of_find hafter.find hmap.named
  have hsize : plane.desc.macropixelSize = f.macropixelSize := by rw [← hformat]; rfl
  have hrows := hmap.rows.symm.trans (hmap.rows_format hafter.manager hafter.made)
  have hcols := hmap.rowBytes.symm.trans (hmap.width_format hafter.manager hafter.made)
  rw [hformat] at hrows hcols
  obtain ⟨desc, fill, hd, hfill⟩ := hclears.pattern
  cases hdesc.symm.trans hd
  have hreads := hb.reads hh hf hin hc ht (hsize ▸ hfill)
  rw [← hrows, ← hcols, ← hsize] at hreads
  exact ⟨_, _, fill, size_of_find hafter.find, hdesc, hfill, Nat.dvd_mul_left .., hreads⟩

end

theorem BlanksAll.blanked (hb : BlanksAll h picture s s' m r fs) (hh : Holds h p picture s m)
    (hin : ∀ f ∈ fs, f ∈ m.format.planes)
    (hc : ∀ f ∈ fs, Clears h p raw f.chroma r ∧ ¬ h.TornAt p f.chroma r) :
    Blanked h (h.store picture.storage s') p raw (fs.map PlaneFormat.chroma) picture s s' r where
  before := hh.find
  after := (hb.holds hh).find
  heap := rfl
  refCount := hb.kept.refCount p
  region := List.forall_mem_map.mpr fun f hf => (hc f hf).1.region
  shows := List.forall_mem_map.mpr fun f hf =>
    hb.showsBlank hh hf (hin f hf) (hc f hf).1 (hc f hf).2
  rest := hb.rest

/-! ### Whole operations -/

theorem Clears.region_eq (hh : Holds h p picture s m) {other : String} (hc : Clears h p raw chroma r)
    (hc' : Clears h p raw other q) : q = r := by
  obtain ⟨-, -, hraw, -⟩ := (normalizeRegion_eq_ok hh).mp hc.region
  obtain ⟨-, -, hraw', -⟩ := (normalizeRegion_eq_ok hh).mp hc'.region
  exact Except.ok.inj (hraw'.symm.trans hraw)

theorem exists_region (hh : Holds h p picture s m) {chromas : List String}
    (hc : ∀ chroma ∈ chromas, ClearsAt h p raw chroma) :
    ∃ r, ∀ chroma ∈ chromas, Clears h p raw chroma r ∧ ¬ h.TornAt p chroma r := by
  cases chromas with
  | nil => exact ⟨⟨0, 0, 0, 0⟩, nofun⟩
  | cons first chromas =>
    obtain ⟨r, hfirst, -⟩ := hc first List.mem_cons_self
    refine ⟨r, fun chroma hchroma => ?_⟩
    obtain ⟨q, hclears, hwhole⟩ := hc chroma hchroma
    obtain rfl := hfirst.region_eq hh hclears
    exact ⟨hclears, hwhole⟩

theorem blanked_of_forM (fs : List PlaneFormat) (hh : Holds h p picture s m)
    (hin : ∀ f ∈ fs, f ∈ m.format.planes) (hn : (fs.map PlaneFormat.chroma).Nodup)
    (hc : ∀ chroma ∈ fs.map PlaneFormat.chroma, ClearsAt h p raw chroma) :
    ∃ t s' r, (fs.map PlaneFormat.chroma).forM (clearPlane p raw) h = (.ok (), t) ∧
      Blanked h t p raw (fs.map PlaneFormat.chroma) picture s s' r := by
  obtain ⟨r, hall⟩ := exists_region hh hc
  have hfs := List.forall_mem_map.mp hall
  obtain ⟨s', hrun, hb⟩ := forM_clearPlane fs hh hin hn hfs
  exact ⟨_, s', r, hrun, hb.blanked hh hin hfs⟩

theorem clearsAt_of_ok (hh : Holds h p picture s m) (hrun : clearPlane p raw chroma h = (.ok (), t)) :
    ClearsAt h p raw chroma := by
  cases round_clearPlane hh.writing raw chroma with
  | fails hp hst hrun' ht => cases hrun'.symm.trans hrun
  | passes hp hst hrun' ht => exact hp
  | stops hst hrun' => exact absurd hrun' (Op.not_crashes_of_ok hrun)

theorem Holds.format_of_clears (hh : Holds h p picture s m) (hc : Clears h p raw chroma r) :
    ∃ f ∈ m.format.planes, f.chroma = chroma := by
  obtain ⟨plane, hp, -⟩ := (normalizeRegion_eq_ok hh).mp hc.region
  exact hh.format_of_plane? hp

/-- Where a region was cleared it is blank in all planes. Where it was cleared in one plane, it is blank
there. All other bytes, the window, the mappings and the handles are as they were. -/
theorem cleared_is_blank (hr : Reachable makers h) (hp : h.picture? p = some picture)
    (raw : RawRegion) :
    (∀ t, clear p raw h = (.ok (), t) → ∃ s s' r, Blanked h t p raw (h.planes p) picture s s' r) ∧
      ∀ chroma t, clearPlane p raw chroma h = (.ok (), t) →
        ∃ s s' r, Blanked h t p raw [chroma] picture s s' r := by
  obtain ⟨s, m, hh⟩ := hr.sound.holds hp
  constructor
  · intro t hrun
    rw [clear_run] at hrun
    have hall := Op.forM_passes _ (fun chroma _ t ht => round_clearPlane ht raw chroma) hh.writing hrun
    rw [hh.chromas] at hall hrun ⊢
    obtain ⟨t', s', r, hrun', hb⟩ := blanked_of_forM _ hh (fun _ hf => hf) hh.manager.format.names hall
    cases hrun'.symm.trans hrun
    exact ⟨s, s', r, hb⟩
  · intro chroma t hrun
    have hc := clearsAt_of_ok hh hrun
    obtain ⟨r, hclears, -⟩ := id hc
    obtain ⟨f, hf, rfl⟩ := hh.format_of_clears hclears
    have hin : ∀ g ∈ [f], g ∈ m.format.planes := List.forall_mem_singleton.mpr hf
    obtain ⟨t', s', r, hrun', hb⟩ := blanked_of_forM [f] hh hin (by simp)
      (List.forall_mem_singleton.mpr hc)
    cases ((Op.bind_of_ok hrun).symm.trans hrun' :)
    exact ⟨s, s', r, hb⟩

theorem tallColor_half_blank :
    let halved := (clear (⟨0⟩ : Handle) ⟨2, 0, 2, 2⟩ tallColor).2
    clear (⟨0⟩ : Handle) ⟨2, 0, 2, 2⟩ tallColor = (.ok (), halved) ∧
      halved.ShowsBlank ⟨0⟩ ⟨2, 0, 2, 2⟩ "u8" ⟨2, 0, 2, 2⟩ ∧
        halved.Reads ⟨0⟩ "u8" ⟨2, 0, 2, 2⟩ [[0x80]] := by
  have hp : tallColor.picture? ⟨0⟩ = some ⟨0, ⟨0, 0, 4, 2⟩, 0⟩ := by decide +kernel
  have hrun : clear (⟨0⟩ : Handle) ⟨2, 0, 2, 2⟩ tallColor =
      (.ok (), (clear (⟨0⟩ : Handle) ⟨2, 0, 2, 2⟩ tallColor).2) := Prod.ext (by decide +kernel) rfl
  obtain ⟨s, s', r, hb⟩ := (cleared_is_blank reachable_tallColor hp ⟨2, 0, 2, 2⟩).1 _ hrun
  have hu : "u8" ∈ tallColor.planes ⟨0⟩ := by decide +kernel
  have hregion : normalizeRegion (⟨0⟩ : Handle) "u8" ⟨2, 0, 2, 2⟩ tallColor = .ok ⟨2, 0, 2, 2⟩ := by
    decide +kernel
  cases hregion.symm.trans (hb.region "u8" hu)
  have hshows := hb.shows "u8" hu
  refine ⟨hrun, hshows, ?_⟩
  obtain ⟨size, desc, fill, hsize, hdesc, hfill, -, hreads⟩ := hshows
  have hsize' : size = ⟨4, 2, 1⟩ := Except.ok.inj (hsize.symm.trans (by decide +kernel))
  have hdesc' : desc = ⟨16, 2, 2, 1⟩ := Except.ok.inj (hdesc.symm.trans (by decide +kernel))
  subst hsize' hdesc'
  cases (show Chroma.neutralFill "u8" 1 = .ok [0x80] by decide +kernel).symm.trans hfill
  exact hreads

end Heap

end Planar
