import Planar.Proofs.Heap.Mapping
import Planar.Proofs.Image
set_option autoImplicit false

/-!
Writes through a handle that owns its storage. A plane is mapped, painted and released; what is
left is the same heap with another storage, of which one block is new.
-/

namespace Planar

namespace Storage

def byte (s : Storage) (chroma : String) (y c : Nat) : UInt8 :=
  match s.plane? chroma with
  | some p => p.byte y c
  | none => 0

def write (chroma : String) (start : Nat) (view : View) (s : Storage) : Storage :=
  { s with planes := writePlane chroma start view s.planes }

variable {s : Storage} {m : Manager} {f : PlaneFormat} {p : PlaneStore} {chroma : String}
  {start : Nat} {view : View}

theorem byte_of_plane? (hp : s.plane? chroma = some p) : s.byte chroma = p.byte := by
  funext y c
  unfold byte
  rw [hp]

theorem find?_writePlane_self {planes : List PlaneStore}
    (hp : planes.find? (·.chroma = chroma) = some p) :
    (writePlane chroma start view planes).find? (·.chroma = chroma) =
      some { p with data := view.putBack p.data start } := by
  induction planes with
  | nil => cases hp
  | cons q planes ih =>
    unfold writePlane
    by_cases hq : q.chroma = chroma
    · rw [List.find?_cons_of_pos (by simpa using hq)] at hp
      cases hp
      rw [if_pos hq, List.find?_cons_of_pos (by simpa using hq)]
    · rw [List.find?_cons_of_neg (by simpa using hq)] at hp
      rw [if_neg hq, List.find?_cons_of_neg (by simpa using hq), ih hp]

theorem find?_writePlane_ne {planes : List PlaneStore} {other : String} (hne : other ≠ chroma) :
    (writePlane chroma start view planes).find? (·.chroma = other) =
      planes.find? (·.chroma = other) := by
  induction planes with
  | nil => rfl
  | cons q planes ih =>
    unfold writePlane
    by_cases hq : q.chroma = chroma
    · have ho : q.chroma ≠ other := fun h => hne (h.symm.trans hq)
      rw [if_pos hq, List.find?_cons_of_neg (by simpa using ho),
        List.find?_cons_of_neg (by simpa using ho)]
    · rw [if_neg hq, List.find?_cons, List.find?_cons, ih]

theorem find?_of_nodup {planes : List PlaneStore} (hn : (planes.map PlaneStore.chroma).Nodup)
    (hp : p ∈ planes) : planes.find? (·.chroma = p.chroma) = some p := by
  induction planes with
  | nil => cases hp
  | cons q planes ih =>
    rw [List.map_cons, List.nodup_cons] at hn
    rcases List.mem_cons.mp hp with rfl | hp
    · exact List.find?_cons_of_pos (by simp)
    · have hq : q.chroma ≠ p.chroma := fun h => hn.1 (h ▸ List.mem_map_of_mem hp)
      rw [List.find?_cons_of_neg (by simpa using hq)]
      exact ih hn.2 hp

theorem plane?_write_self (hp : s.plane? chroma = some p) :
    (s.write chroma start view).plane? chroma = some { p with data := view.putBack p.data start } :=
  find?_writePlane_self hp

theorem byte_write_ne {other : String} (hne : other ≠ chroma) :
    (s.write chroma start view).byte other = s.byte other := by
  funext y c
  have hp : (s.write chroma start view).plane? other = s.plane? other := find?_writePlane_ne hne
  unfold byte
  rw [hp]

theorem MadeBy.plane? (hs : s.MadeBy m) (hm : m.Sound) (hf : f ∈ m.format.planes) :
    ∃ p, s.plane? f.chroma = some p ∧ p.format = f := by
  rw [← hs.planes] at hf
  obtain ⟨p, hp, rfl⟩ := List.mem_map.mp hf
  exact ⟨p, find?_of_nodup (hs.names hm) hp, rfl⟩

/-- Only the block of one plane is new. -/
structure Paints (s s' : Storage) (m : Manager) (f : PlaneFormat) (b : Block)
    (inner : Nat → Nat → UInt8) : Prop where
  made : s'.MadeBy m
  hsize : s'.hsize = s.hsize
  vsize : s'.vsize = s.vsize
  here : ∀ y c, c < f.width s.macropixel s.hsize →
    s'.byte f.chroma y c = b.paint inner (s.byte f.chroma) y c
  elsewhere : ∀ chroma, chroma ≠ f.chroma → s'.byte chroma = s.byte chroma

end Storage

theorem Storage.Paints.congr {s s' : Storage} {m : Manager} {f : PlaneFormat} {b : Block}
    {inner inner' : Nat → Nat → UInt8} (hp : s.Paints s' m f b inner)
    (hi : ∀ y c, y < b.rows → c < b.width → inner y c = inner' y c) :
    s.Paints s' m f b inner' where
  made := hp.made
  hsize := hp.hsize
  vsize := hp.vsize
  here := by
    intro y c hc
    rw [hp.here y c hc]
    exact Block.paint_congr hi _ y c
  elsewhere := hp.elsewhere

structure Storage.PaintsAll (s s' : Storage) (m : Manager) (r : Region)
    (parts : List (PlaneFormat × (Nat → Nat → UInt8))) : Prop where
  made : s'.MadeBy m
  hsize : s'.hsize = s.hsize
  vsize : s'.vsize = s.vsize
  here : ∀ part ∈ parts, ∀ y c, c < part.1.width s.macropixel s.hsize →
    s'.byte part.1.chroma y c =
      (part.1.block m.format.macropixel r).paint part.2 (s.byte part.1.chroma) y c
  elsewhere : ∀ chroma, chroma ∉ parts.map (·.1.chroma) → s'.byte chroma = s.byte chroma

namespace Storage

variable {s s₁ s' : Storage} {m : Manager} {f : PlaneFormat} {r : Region}
  {inner : Nat → Nat → UInt8} {parts : List (PlaneFormat × (Nat → Nat → UInt8))}

theorem PaintsAll.nil (hs : s.MadeBy m) : s.PaintsAll s m r [] :=
  ⟨hs, rfl, rfl, fun _ h => (nomatch h), fun _ _ => rfl⟩

theorem PaintsAll.cons (hs : s.MadeBy m)
    (hp : s.Paints s₁ m f (f.block m.format.macropixel r) inner) (hrest : s₁.PaintsAll s' m r parts)
    (hn : f.chroma ∉ parts.map (·.1.chroma)) : s.PaintsAll s' m r ((f, inner) :: parts) where
  made := hrest.made
  hsize := hrest.hsize.trans hp.hsize
  vsize := hrest.vsize.trans hp.vsize
  here := by
    intro part hpart y c hc
    rcases List.mem_cons.mp hpart with rfl | hpart
    · rw [hrest.elsewhere _ hn]
      exact hp.here y c hc
    · have hne : part.1.chroma ≠ f.chroma := fun heq =>
        hn (heq ▸ List.mem_map_of_mem (f := fun part => part.1.chroma) hpart)
      rw [← hp.elsewhere _ hne]
      refine hrest.here part hpart y c ?_
      rw [hp.made.macropixel, hp.hsize, ← hs.macropixel]
      exact hc
  elsewhere := by
    intro chroma hc
    rw [List.map_cons, List.mem_cons, not_or] at hc
    rw [hrest.elsewhere chroma hc.2, hp.elsewhere chroma hc.1]

theorem PaintsAll.shows (hp : s.PaintsAll s' m r parts) (hs : s.MadeBy m) (hr : r.right ≤ s.hsize)
    {part : PlaneFormat × (Nat → Nat → UInt8)} (hpart : part ∈ parts) {y c : Nat}
    (hy : y < part.1.rows r.vsize) (hc : c < part.1.width m.format.macropixel r.hsize) :
    part.1.shows m.format.macropixel r s'.byte y c = part.2 y c := by
  have hcol := PlaneFormat.width_lt hr hc
  rw [← hs.macropixel] at hcol
  rw [PlaneFormat.shows, ← hs.macropixel, hp.here part hpart _ _ hcol, hs.macropixel]
  exact Block.paint_inside (b := part.1.block m.format.macropixel r) hy hc _ _

end Storage

theorem PlaneStore.rows_format {p : PlaneStore} (hp : 0 < p.desc.vsub) (vsize : Nat) :
    p.desc.rows vsize = p.format.rows vsize := by
  rw [PlaneDesc.rows, Nat.max_eq_left hp]
  rfl

theorem PlaneStore.width_format {p : PlaneStore} {macropixel : Nat} (hp : 0 < p.desc.hsub)
    (hm : 0 < macropixel) (hsize : Nat) :
    p.desc.rowBytes hsize macropixel = p.format.width macropixel hsize := by
  rw [PlaneDesc.rowBytes_eq, PlaneDesc.unit, Nat.max_eq_left hp, Nat.max_eq_left hm]
  rfl

namespace Mapping

variable {picture : Picture} {s : Storage} {m : Manager} {chroma : String} {r : Region}
  {plane : PlaneStore} {v w : View} {inner : Nat → Nat → UInt8}

/-- What was painted on a mapped view is in the storage when the view has come back. -/
theorem paints (hmap : Mapping picture s chroma r plane v) (hm : m.Sound) (hs : s.MadeBy m)
    (hp : View.Painted v.shape.rows inner v w) :
    s.Paints (s.write chroma (picture.span s plane r).offset w) m plane.format
      (plane.format.block s.macropixel (picture.absolute r)) inner where
  made := hs.write ..
  hsize := rfl
  vsize := rfl
  here := by
    intro y c hc
    obtain rfl := (Storage.mem_of_plane? hmap.named).2
    have hmem := (Storage.mem_of_plane? hmap.named).1
    have hfactors := hs.factors hm plane hmem
    have hpixels : 0 < s.macropixel := by
      rw [hs.macropixel]
      exact hm.format.macropixel_pos
    have hcovers := (hs.roomy plane hmem).covers
    rw [PlaneStore.width_format hfactors.1 hpixels] at hcovers
    have hrows : v.shape.rows = (picture.span s plane r).rows := by rw [hmap.shape]
    have hput := hmap.lies.byte_putBack hmap.shape hmap.bytes (hrows ▸ hp)
      (Nat.lt_of_lt_of_le hc hcovers) (y := y)
    have hblock : plane.format.block s.macropixel (picture.absolute r) =
        ⟨plane.desc.rows (picture.window.voffset + r.voffset),
          plane.desc.rowBytes (picture.window.hoffset + r.hoffset) s.macropixel,
          (picture.span s plane r).rows, (picture.span s plane r).rowBytes⟩ := by
      simp only [PlaneFormat.block, Picture.absolute, Picture.span, PlaneDesc.span,
        PlaneStore.rows_format hfactors.2.1, PlaneStore.width_format hfactors.1 hpixels]
    rw [hblock]
    change (Storage.write plane.chroma _ w s).byte plane.chroma y c = _
    rw [Storage.byte_of_plane? (Storage.plane?_write_self hmap.named), hput]
    change _ = Block.paint _ inner (s.byte plane.chroma) y c
    rw [Storage.byte_of_plane? hmap.named]
    rfl
  elsewhere := by
    intro other hne
    obtain rfl := (Storage.mem_of_plane? hmap.named).2
    exact Storage.byte_write_ne hne

theorem rows_format (hmap : Mapping picture s chroma r plane v) (hm : m.Sound)
    (hs : s.MadeBy m) : v.shape.rows = plane.format.rows r.vsize := by
  have hfactors := hs.factors hm plane (Storage.mem_of_plane? hmap.named).1
  rw [hmap.rows, PlaneStore.rows_format hfactors.2.1]

theorem width_format (hmap : Mapping picture s chroma r plane v) (hm : m.Sound)
    (hs : s.MadeBy m) : v.shape.rowBytes = plane.format.width m.format.macropixel r.hsize := by
  have hfactors := hs.factors hm plane (Storage.mem_of_plane? hmap.named).1
  rw [hmap.rowBytes, hs.macropixel, PlaneStore.width_format hfactors.1 hm.format.macropixel_pos]

theorem byte_format (hmap : Mapping picture s chroma r plane v) (hm : m.Sound)
    (hs : s.MadeBy m) {y c : Nat} (hy : y < v.shape.rows) (hc : c < v.shape.rowBytes) :
    v.byte y c = plane.format.shows m.format.macropixel (picture.absolute r) s.byte y c := by
  obtain rfl := (Storage.mem_of_plane? hmap.named).2
  have hfactors := hs.factors hm plane (Storage.mem_of_plane? hmap.named).1
  rw [hmap.rows] at hy
  rw [hmap.rowBytes] at hc
  have hsame : s.byte plane.format.chroma = plane.byte := Storage.byte_of_plane? hmap.named
  rw [hmap.byte hy hc, hs.macropixel, PlaneStore.rows_format hfactors.2.1,
    PlaneStore.width_format hfactors.1 hm.format.macropixel_pos, PlaneFormat.shows, hsame]
  rfl

theorem setMapped (hm : Mapping picture s chroma r plane v) (count : Nat) :
    Mapping { picture with mapped := count } s chroma r plane v :=
  ⟨hm.named, hm.locate, hm.view, hm.lies, hm.shape, hm.bytes⟩

end Mapping

/-! ### Heaps with another storage -/

namespace Heap

def store (h : Heap) (i : Nat) (s : Storage) : Heap := h.mapStorage i fun _ => s

variable {h : Heap} {p q : Handle} {picture other : Picture} {s s' t : Storage} {m k : Manager}
  {chroma : String} {raw : RawRegion} {r : Region} {plane : PlaneStore} {v : View} {i : Nat}

@[simp] theorem refs_store (j : Nat) : (h.store i s).refs j = h.refs j := refs_mapStorage ..

theorem stored?_store (hi : h.stored? i = some t) : (h.store i s).stored? i = some s := by
  unfold store
  rw [stored?_mapStorage, if_pos rfl, hi]
  rfl

theorem stored?_store_ne {j : Nat} (hne : i ≠ j) : (h.store i s).stored? j = h.stored? j := by
  unfold store
  rw [stored?_mapStorage, if_neg hne]

theorem mapStorage_eq_store {f : Storage → Storage} (hi : h.stored? i = some s) :
    h.mapStorage i f = h.store i (f s) := by
  obtain ⟨shared, hs, rfl⟩ := Option.map_eq_some_iff.mp hi
  unfold store mapStorage
  congr 1
  apply Array.ext_getElem?
  intro j
  rw [Array.getElem?_modify, Array.getElem?_modify]
  split
  · rename_i hij
    rw [← hij, hs]
    rfl
  · rfl

theorem store_self (hi : h.stored? i = some s) : h.store i s = h := by
  obtain ⟨shared, hs, rfl⟩ := Option.map_eq_some_iff.mp hi
  unfold store mapStorage
  congr 1
  apply Array.ext_getElem?
  intro j
  rw [Array.getElem?_modify]
  split
  · rename_i hij
    rw [← hij, hs]
    rfl
  · rfl

theorem store_store : (h.store i s).store i t = h.store i t := by
  unfold store mapStorage
  congr 1
  apply Array.ext_getElem?
  intro j
  simp only [Array.getElem?_modify]
  split
  · cases h.storages[j]? <;> rfl
  · rfl

theorem Holds.stored? (hh : Holds h p picture s m) : h.stored? picture.storage = some s :=
  (find_eq_ok.mp hh.find).2

theorem Holds.store (hh : Holds h p picture s m) (hs : s'.MadeBy m) (hhs : s'.hsize = s.hsize)
    (hvs : s'.vsize = s.vsize) : Holds (h.store picture.storage s') p picture s' m where
  find := find_eq_ok.mpr ⟨hh.picture?, stored?_store hh.stored?⟩
  manager := hh.manager
  made := hs
  held := by
    have hw := hh.held
    have hhg : s'.hgrid = s.hgrid := hs.hgrid.trans hh.made.hgrid.symm
    have hvg : s'.vgrid = s.vgrid := hs.vgrid.trans hh.made.vgrid.symm
    refine ⟨hhs ▸ hw.right, hvs ▸ hw.bottom, hhg ▸ hw.hsize, hvg ▸ hw.vsize, ?_⟩
    rw [hhg, hvg]
    exact hw.offsets

theorem Holds.store_ne (hh : Holds h q other t k) (hne : i ≠ other.storage) :
    Holds (h.store i s) q other t k :=
  ⟨find_eq_ok.mpr ⟨hh.picture?, (stored?_store_ne hne).trans hh.stored?⟩, hh.manager, hh.made,
    hh.held⟩

theorem Holds.setMapped (hh : Holds h p picture s m) (count : Nat) :
    Holds (h.setMapped p picture count) p { picture with mapped := count } s m :=
  ⟨find_eq_ok.mpr ⟨picture?_setPicture_self h p _ (slot_lt hh.picture?), hh.stored?⟩, hh.manager,
    hh.made, hh.held⟩

theorem Holds.setPicture_ne (hh : Holds h q other t k) (hne : q ≠ p) (o : Option Picture) :
    Holds (h.setPicture p o) q other t k :=
  ⟨find_eq_ok.mpr ⟨(picture?_setPicture_ne h p q _ hne).trans hh.picture?, hh.stored?⟩, hh.manager,
    hh.made, hh.held⟩

theorem Holds.setMapped_ne (hh : Holds h q other t k) (hne : q ≠ p) (count : Nat) :
    Holds (h.setMapped p picture count) q other t k :=
  hh.setPicture_ne hne _

theorem setPicture_setPicture (o o' : Option Picture) :
    (h.setPicture p o).setPicture p o' = h.setPicture p o' := by
  simp [setPicture, Array.setIfInBounds_setIfInBounds]

theorem setPicture_picture? (hp : h.picture? p = some picture) :
    h.setPicture p (some picture) = h := by
  have hget := getElem?_of_picture? hp
  unfold setPicture
  congr 1
  apply Array.ext_getElem?
  intro j
  by_cases hj : p.slot = j
  · rw [← hj, Array.getElem?_setIfInBounds_self_of_lt (slot_lt hp), hget]
  · rw [Array.getElem?_setIfInBounds_ne hj]

theorem setMapped_back (hp : h.picture? p = some picture) (count : Nat) :
    (h.setMapped p picture count).setMapped p { picture with mapped := count } picture.mapped = h := by
  unfold setMapped
  rw [setPicture_setPicture]
  exact setPicture_picture? hp

theorem store_setMapped (count : Nat) :
    (h.setMapped p picture count).store i s = (h.store i s).setMapped p picture count := rfl

/-! ### Mapping, painting and release -/

theorem Holds.normalize_iff (hh : Holds h p picture s m) {f : PlaneFormat}
    (hf : f ∈ m.format.planes) :
    normalizeRegion p f.chroma raw h = .ok r ↔
      raw.resolve ⟨picture.window.hsize, picture.window.vsize, m.format.macropixel⟩ = .ok r ∧
        r.OnSamples f.hsub f.vsub := by
  obtain ⟨plane, hp, rfl⟩ := hh.made.plane? hh.manager hf
  have hsize : picture.visible s =
      ⟨picture.window.hsize, picture.window.vsize, m.format.macropixel⟩ := by
    rw [← hh.made.macropixel]
    rfl
  rw [normalizeRegion_eq_ok hh, hp, hsize]
  constructor
  · intro hgiven
    obtain ⟨plane', hp', h⟩ := hgiven
    cases hp'
    exact h
  · exact fun h => ⟨plane, rfl, h⟩

theorem Holds.format_of_plane? (hh : Holds h p picture s m) (hp : s.plane? chroma = some plane) :
    ∃ f ∈ m.format.planes, f.chroma = chroma := by
  obtain ⟨hmem, hc⟩ := Storage.mem_of_plane? hp
  exact ⟨plane.format, hh.made.planes ▸ List.mem_map_of_mem hmem, hc⟩

theorem exists_formatMapping (hh : Holds h p picture s m) {f : PlaneFormat}
    (hf : f ∈ m.format.planes) (hn : normalizeRegion p f.chroma raw h = .ok r) :
    ∃ plane v, plane.format = f ∧ Mapping picture s f.chroma r plane v := by
  obtain ⟨plane', hp', hformat⟩ := hh.made.plane? hh.manager hf
  obtain ⟨plane, v, hmap⟩ := exists_mapping hh hn
  obtain rfl := Option.some.inj (hp'.symm.trans hmap.named)
  exact ⟨plane', v, hformat, hmap⟩

theorem planeUnmap_back (hh : Holds h p picture s m)
    (hn : normalizeRegion p chroma raw h = .ok r) :
    planeUnmap p chroma raw (h.setMapped p picture (picture.mapped + 1)) = (.ok (), h) := by
  have hg := hh.setMapped (picture.mapped + 1)
  have hn' : normalizeRegion p chroma raw (h.setMapped p picture (picture.mapped + 1)) = .ok r := by
    rw [normalizeRegion_eq_ok hg]
    exact (normalizeRegion_eq_ok hh).mp hn
  obtain ⟨plane, v, hm⟩ := exists_mapping hg hn'
  rw [planeUnmap_of_mapping hg (Nat.succ_ne_zero _) hn' hm]
  exact congrArg (Prod.mk _) (setMapped_back hh.picture? _)

theorem planeUnmap_eq_unmap (hn : normalizeRegion p chroma raw h = .ok r) :
    planeUnmap p chroma raw h = unmap p chroma r h := by
  unfold planeUnmap
  rw [Op.bind_run, Op.ask_run, hn]
  rfl

theorem commit_back (hh : Holds h p picture s m) (hn : normalizeRegion p chroma raw h = .ok r)
    (hm : Mapping picture s chroma r plane v) (w : View) :
    let t := (h.setMapped p picture (picture.mapped + 1)).commit p chroma r w
    planeUnmap p chroma raw t = (.ok (), h.store picture.storage
      (s.write chroma (picture.span s plane r).offset w)) := by
  have hg := hh.setMapped (picture.mapped + 1)
  have hcommit := (commit_of_ok hg.find (hm.setMapped _).locate w).trans
    (mapStorage_eq_store hg.stored?)
  obtain ⟨f, hf, rfl⟩ := hh.format_of_plane? hm.named
  have hs : (s.write f.chroma (picture.span s plane r).offset w).MadeBy m := hh.made.write ..
  have ht := hh.store hs rfl rfl
  have hn' := (ht.normalize_iff hf).mpr ((hh.normalize_iff hf).mp hn)
  simp only
  rw [hcommit]
  exact planeUnmap_back ht hn'

end Heap

end Planar
