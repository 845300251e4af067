import Planar.Proofs.Crash
import Planar.Proofs.Heap.Layout
import Planar.Proofs.Plane
set_option autoImplicit false

/-!
Checked access to the planes of a picture. A region is accepted exactly if it cuts no sample,
and an accepted region can be mapped.
-/

namespace Planar

theorem Storage.mem_of_plane? {s : Storage} {chroma : String} {p : PlaneStore}
    (h : s.plane? chroma = some p) : p ∈ s.planes ∧ p.chroma = chroma := by
  unfold plane? at h
  exact ⟨List.mem_of_find?_eq_some h, by simpa using List.find?_some h⟩

def Picture.span (picture : Picture) (s : Storage) (plane : PlaneStore) (r : Region) : Span :=
  plane.desc.span (picture.absolute r) s.macropixel

structure Mapping (picture : Picture) (s : Storage) (chroma : String) (r : Region)
    (plane : PlaneStore) (v : View) : Prop where
  named : s.plane? chroma = some plane
  locate : picture.locate s chroma r = .ok (plane, picture.span s plane r)
  view : Picture.view plane (picture.span s plane r) = .ok v
  lies : (picture.span s plane r).Lies plane
    (plane.desc.rows (picture.window.voffset + r.voffset))
    (plane.desc.rowBytes (picture.window.hoffset + r.hoffset) s.macropixel)
  shape : v.shape = (picture.span s plane r).toShape
  bytes : ∀ i, i < (picture.span s plane r).len →
    v.data.byte i = plane.data.byte ((picture.span s plane r).offset + i)

namespace Heap

/-- Cut out of this plane, the region has rows that begin behind the end of its view. -/
def TornAt (h : Heap) (p : Handle) (chroma : String) (r : Region) : Prop :=
  ∃ size desc, h.size p = .ok size ∧ h.planeDesc p chroma = .ok desc ∧
    (desc.span r size.macropixel).toShape.Torn

/-- A read of the region gives these rows. -/
def Reads (h : Heap) (p : Handle) (chroma : String) (raw : RawRegion) (rows : List (List UInt8)) :
    Prop :=
  ∃ v, (planeRead p chroma raw h).1 = .ok v ∧ v.rows = .ok rows

/-- The handle has a window on a storage of the manager. -/
structure Holds (h : Heap) (p : Handle) (picture : Picture) (s : Storage) (m : Manager) : Prop where
  find : h.find p = .ok (picture, s)
  manager : m.Sound
  made : s.MadeBy m
  held : picture.window.Held s m

variable {makers : List Manager} {h : Heap} {p : Handle} {picture : Picture} {s : Storage}
  {m : Manager} {chroma : String} {plane : PlaneStore} {raw : RawRegion} {r : Region} {v : View}

theorem Sound.holds (hs : Sound makers h) (hp : h.picture? p = some picture) :
    ∃ s m, Holds h p picture s m := by
  obtain ⟨s, m, hf, -, hm, hmade, hw⟩ := hs.find hp
  exact ⟨s, m, hf, hm, hmade, hw⟩

theorem Sound.holds_of_find (hs : Sound makers h) (hf : h.find p = .ok (picture, s)) :
    ∃ m, Holds h p picture s m := by
  obtain ⟨s', m, hh⟩ := hs.holds (find_eq_ok.mp hf).1
  cases hf.symm.trans hh.find
  exact ⟨m, hh⟩

theorem Sound.holds_of_maker (hs : Sound makers h) (hf : h.find p = .ok (picture, s))
    (hm : makers[picture.storage]? = some m) : Holds h p picture s m := by
  obtain ⟨s', m', hf', hm', hsound, hmade, hw⟩ := hs.find (find_eq_ok.mp hf).1
  cases hf.symm.trans hf'
  obtain rfl := Option.some.inj (hm.symm.trans hm')
  exact ⟨hf, hsound, hmade, hw⟩

theorem Holds.picture? (hh : Holds h p picture s m) : h.picture? p = some picture :=
  (find_eq_ok.mp hh.find).1

theorem Holds.macropixel_pos (hh : Holds h p picture s m) : 0 < s.macropixel := by
  rw [hh.made.macropixel]
  exact hh.manager.format.macropixel_pos

theorem Holds.fits (hh : Holds h p picture s m) (hp : s.plane? chroma = some plane) :
    picture.Fits s plane :=
  have hmem := (Storage.mem_of_plane? hp).1
  ⟨⟨hh.held.right, hh.held.bottom⟩, hh.made.roomy plane hmem,
    hh.made.factors hh.manager plane hmem⟩

theorem size_of_find (hf : h.find p = .ok (picture, s)) : size p h = .ok (picture.visible s) := by
  unfold size
  rw [hf]
  rfl

theorem planeDesc_of_find (hf : h.find p = .ok (picture, s)) (hp : s.plane? chroma = some plane) :
    planeDesc p chroma h = .ok plane.desc := by
  unfold planeDesc
  simp only [hf, bind, Except.bind, hp]
  rfl

theorem planeDesc_eq_ok {desc : PlaneDesc} (hf : h.find p = .ok (picture, s)) :
    planeDesc p chroma h = .ok desc ↔ ∃ plane, s.plane? chroma = some plane ∧ plane.desc = desc := by
  constructor
  · intro hdesc
    unfold planeDesc at hdesc
    simp only [hf, bind, Except.bind] at hdesc
    cases hp : s.plane? chroma with
    | none =>
      simp only [hp] at hdesc
      cases hdesc
    | some plane =>
      simp only [hp] at hdesc
      cases hdesc
      exact ⟨plane, rfl, rfl⟩
  · intro hgiven
    obtain ⟨plane, hp, rfl⟩ := hgiven
    exact planeDesc_of_find hf hp

theorem normalizeRegion_eq_ok (hh : Holds h p picture s m) :
    normalizeRegion p chroma raw h = .ok r ↔
      ∃ plane, s.plane? chroma = some plane ∧ raw.resolve (picture.visible s) = .ok r ∧
        r.OnSamples plane.desc.hsub plane.desc.vsub := by
  rw [normalizeRegion_iff (size_of_find hh.find)]
  constructor
  · rintro ⟨desc, hdesc, -, hraw, hr⟩
    obtain ⟨plane, hp, rfl⟩ := (planeDesc_eq_ok hh.find).mp hdesc
    exact ⟨plane, hp, RawRegion.resolve_eq_ok.mpr hraw, hr⟩
  · rintro ⟨plane, hp, hraw, hr⟩
    obtain ⟨hhsub, hvsub, hmacropixelSize⟩ := (hh.fits hp).factors
    exact ⟨plane.desc, planeDesc_of_find hh.find hp,
      ⟨hhsub, hvsub, hmacropixelSize, hh.macropixel_pos⟩, RawRegion.resolve_eq_ok.mp hraw, hr⟩

theorem planeDesc_ne_crash (hf : h.find p = .ok (picture, s)) (chroma : String) :
    planeDesc p chroma h ≠ .error .crash := by
  unfold planeDesc
  simp only [hf, bind, Except.bind]
  split <;> exact nofun

theorem normalizeRegion_ne_crash (hf : h.find p = .ok (picture, s)) (chroma : String)
    (raw : RawRegion) : normalizeRegion p chroma raw h ≠ .error .crash := by
  have hsize : size p h ≠ .error .crash := by
    rw [size_of_find hf]
    exact nofun
  unfold normalizeRegion
  apply Stop.bind_ne_error hsize
  intro size _
  apply Stop.bind_ne_error (Stop.lift_ne_crash _)
  intro region _
  apply Stop.bind_ne_error (planeDesc_ne_crash hf chroma)
  intro desc _
  apply Stop.bind_ne_error (Stop.lift_ne_crash _)
  intro _ _
  apply Stop.bind_ne_error (Stop.lift_ne_crash _)
  exact fun _ _ => nofun

theorem live_of_normalize (hn : normalizeRegion p chroma raw h = .ok r) :
    ∃ picture, h.picture? p = some picture := by
  unfold normalizeRegion at hn
  obtain ⟨size, hsize, -⟩ := Except.bind_eq_ok.mp hn
  obtain ⟨⟨picture, s⟩, hf, -⟩ := Except.bind_eq_ok.mp hsize
  exact ⟨picture, (find_eq_ok.mp hf).1⟩

theorem Holds.absolute_right (hh : Holds h p picture s m)
    (hn : normalizeRegion p chroma raw h = .ok r) : (picture.absolute r).right ≤ s.hsize := by
  obtain ⟨plane, -, hraw, -⟩ := (normalizeRegion_eq_ok hh).mp hn
  have hin := (RawRegion.accepted_of_resolve hraw).right
  have hwindow := hh.held.right
  simp only [Region.right, Picture.absolute, Picture.visible] at *
  omega

theorem Holds.mapping (hh : Holds h p picture s m) (hp : s.plane? chroma = some plane)
    (hright : r.right ≤ picture.window.hsize) (hbottom : r.bottom ≤ picture.window.vsize)
    (hr : r.OnSamples plane.desc.hsub plane.desc.vsub) : ∃ v, Mapping picture s chroma r plane v := by
  have hfits := hh.fits hp
  have hlies := hfits.lies hright hbottom
  obtain ⟨v, hv, hshape, hbytes⟩ := hlies.view
  exact ⟨v, hp, Picture.locate_of_fits hp hright hbottom hfits hr, hv, hlies, hshape, hbytes⟩

theorem exists_mapping (hh : Holds h p picture s m)
    (hn : normalizeRegion p chroma raw h = .ok r) :
    ∃ plane v, Mapping picture s chroma r plane v := by
  obtain ⟨plane, hp, hraw, hr⟩ := (normalizeRegion_eq_ok hh).mp hn
  have haccepted := RawRegion.accepted_of_resolve hraw
  exact ⟨plane, hh.mapping hp haccepted.right haccepted.bottom hr⟩

theorem planeRead_of_mapping (hh : Holds h p picture s m)
    (hn : normalizeRegion p chroma raw h = .ok r) (hm : Mapping picture s chroma r plane v) :
    planeRead p chroma raw h = (.ok v, h.setMapped p picture (picture.mapped + 1)) := by
  unfold planeRead
  rw [Op.bind_run, Op.ask_run, hn]
  exact mapRead_of_ok hh.find hm.locate hm.view

theorem planeWrite_of_mapping (hh : Holds h p picture s m) (hr : h.refs picture.storage = 1)
    (hn : normalizeRegion p chroma raw h = .ok r) (hm : Mapping picture s chroma r plane v) :
    planeWrite p chroma raw h = (.ok (r, v), h.setMapped p picture (picture.mapped + 1)) := by
  unfold planeWrite
  rw [Op.bind_run, Op.ask_run, hn]
  exact Op.bind_of_ok (mapWrite_of_ok hh.find hm.locate hr hm.view)

theorem planeWrite_of_shared (hh : Holds h p picture s m) (hr : h.refs picture.storage ≠ 1)
    (hn : normalizeRegion p chroma raw h = .ok r) (hm : Mapping picture s chroma r plane v) :
    planeWrite p chroma raw h = (.error (.fault (.notExclusive (h.refs picture.storage))), h) := by
  unfold planeWrite
  rw [Op.bind_run, Op.ask_run, hn]
  exact Op.bind_of_error (mapWrite_of_shared hh.find hm.locate hr)

theorem planeUnmap_of_mapping (hh : Holds h p picture s m) (hmapped : picture.mapped ≠ 0)
    (hn : normalizeRegion p chroma raw h = .ok r) (hm : Mapping picture s chroma r plane v) :
    planeUnmap p chroma raw h = (.ok (), h.setMapped p picture (picture.mapped - 1)) := by
  unfold planeUnmap
  rw [Op.bind_run, Op.ask_run, hn]
  exact unmap_of_ok hh.find hm.locate hmapped

theorem tornAt_iff_span (hf : h.find p = .ok (picture, s)) (hp : s.plane? chroma = some plane) :
    h.TornAt p chroma r ↔ (plane.desc.span r s.macropixel).toShape.Torn := by
  unfold TornAt
  rw [size_of_find hf, planeDesc_of_find hf hp]
  constructor
  · intro hgiven
    obtain ⟨size, desc, hsize, hdesc, ht⟩ := hgiven
    cases hsize
    cases hdesc
    exact ht
  · exact fun ht => ⟨_, _, rfl, rfl, ht⟩

theorem tornAt_congr {t : Heap} {q : Handle} {picture' : Picture} {r' : Region}
    (hf : h.find p = .ok (picture, s)) (ht : t.find q = .ok (picture', s))
    (hh : r'.hsize = r.hsize) (hv : r'.vsize = r.vsize) :
    t.TornAt q chroma r' ↔ h.TornAt p chroma r := by
  cases hp : s.plane? chroma with
  | some plane =>
    have hshape : (plane.desc.span r' s.macropixel).toShape = (plane.desc.span r s.macropixel).toShape := by
      simp [PlaneDesc.span, hh, hv]
    rw [tornAt_iff_span hf hp, tornAt_iff_span ht hp, hshape]
  | none =>
    have hnone : ∀ {u : Heap} {o : Handle} {pic : Picture}, u.find o = .ok (pic, s) →
        planeDesc o chroma u = .error (.fault (.unknownPlane chroma)) := by
      intro u o pic hu
      unfold planeDesc
      simp only [hu, bind, Except.bind, hp]
      rfl
    unfold TornAt
    rw [hnone hf, hnone ht]
    simp

theorem tornAt_iff (hf : h.find p = .ok (picture, s)) (hm : Mapping picture s chroma r plane v) :
    h.TornAt p chroma r ↔ v.shape.Torn := by
  rw [tornAt_iff_span hf hm.named, hm.shape]
  exact Iff.rfl

end Heap

namespace Mapping

variable {picture : Picture} {s : Storage} {chroma : String} {r : Region} {plane : PlaneStore}
  {v : View}

theorem rows (hm : Mapping picture s chroma r plane v) : v.shape.rows = plane.desc.rows r.vsize := by
  rw [hm.shape]
  rfl

theorem rowBytes (hm : Mapping picture s chroma r plane v) :
    v.shape.rowBytes = plane.desc.rowBytes r.hsize s.macropixel := by
  rw [hm.shape]
  rfl

theorem regular (hm : Mapping picture s chroma r plane v) (hpos : 0 < v.shape.rowBytes) :
    v.shape.Regular := by
  rw [hm.shape] at hpos ⊢
  exact hm.lies.regular hpos

theorem whole (hm : Mapping picture s chroma r plane v) (ht : ¬ v.shape.Torn) : v.shape.Whole :=
  Shape.whole_of_not_torn hm.regular ht

theorem byte (hm : Mapping picture s chroma r plane v) {y c : Nat}
    (hy : y < plane.desc.rows r.vsize) (hc : c < plane.desc.rowBytes r.hsize s.macropixel) :
    v.byte y c = plane.byte (plane.desc.rows (picture.window.voffset + r.voffset) + y)
      (plane.desc.rowBytes (picture.window.hoffset + r.hoffset) s.macropixel + c) :=
  hm.lies.byte_view hm.shape hm.bytes hy hc

end Mapping

end Planar
