import Planar.Proofs.Heap.Crashes
import Planar.Proofs.Heap.Words
set_option autoImplicit false

/-!
Which regions can be mapped, and what a mapping gives. The checks in front of a mapping are all there
is: behind them the slice lies in its plane, and no number is too large for a word.
-/

namespace Planar

inductive Region.Refused (r : Region) (picture : Picture) (chroma : String) : Fault → Prop where
  | unknown : Refused r picture chroma (.unknownPlane chroma)
  | outside : Refused r picture chroma
      (.invalid (.regionOutside r picture.window.hsize picture.window.vsize))
  | misaligned (what : String) (value : Int) (grid : Nat) :
      Refused r picture chroma (.misaligned what value grid)

theorem Region.checkPlane_eq_error {r : Region} {hsub vsub : Nat} {why : Fault}
    (h : r.checkPlane hsub vsub = .error why) : ∃ what value grid, why = .misaligned what value grid := by
  unfold checkPlane at h
  simp only [bind, Except.bind, throw, throwThe, MonadExceptOf.throw, pure, Except.pure] at h
  repeat' split at h
  all_goals cases h
  all_goals exact ⟨_, _, _, rfl⟩

namespace Heap

variable {makers : List Manager} {h : Heap} {p : Handle} {picture : Picture} {s : Storage}
  {m : Manager} {chroma : String} {plane : PlaneStore} {r : Region} {v : View} {why : Fault}

/-- The picture has the plane, shows all of the region, and the region cuts none of its samples. -/
def Mappable (h : Heap) (p : Handle) (chroma : String) (r : Region) : Prop :=
  chroma ∈ h.planes p ∧ ∃ size desc, h.size p = .ok size ∧ h.planeDesc p chroma = .ok desc ∧
    r.right ≤ size.hsize ∧ r.bottom ≤ size.vsize ∧ r.OnSamples desc.hsub desc.vsub

theorem planes_of_find (hf : h.find p = .ok (picture, s)) :
    planes p h = s.planes.map PlaneStore.chroma := by
  obtain ⟨hp, hi⟩ := find_eq_ok.mp hf
  unfold planes
  rw [storage?_eq hp, hi]

theorem mappable_iff (hf : h.find p = .ok (picture, s)) :
    h.Mappable p chroma r ↔ ∃ plane, s.plane? chroma = some plane ∧
      r.right ≤ picture.window.hsize ∧ r.bottom ≤ picture.window.vsize ∧
        r.OnSamples plane.desc.hsub plane.desc.vsub := by
  constructor
  · intro hgiven
    obtain ⟨-, size, desc, hsize, hdesc, hright, hbottom, hr⟩ := hgiven
    obtain ⟨plane, hp, rfl⟩ := (planeDesc_eq_ok hf).mp hdesc
    cases (size_of_find hf).symm.trans hsize
    exact ⟨plane, hp, hright, hbottom, hr⟩
  · intro hgiven
    obtain ⟨plane, hp, hright, hbottom, hr⟩ := hgiven
    obtain ⟨hmem, hc⟩ := Storage.mem_of_plane? hp
    refine ⟨?_, _, _, size_of_find hf, planeDesc_of_find hf hp, hright, hbottom, hr⟩
    rw [planes_of_find hf, ← hc]
    exact List.mem_map_of_mem hmem

theorem Holds.mapping_or_refused (hh : Holds h p picture s m) (chroma : String) (r : Region) :
    (h.Mappable p chroma r ∧ ∃ plane v, Mapping picture s chroma r plane v) ∨
      (¬ h.Mappable p chroma r ∧
        ∃ why, picture.locate s chroma r = .error why ∧ r.Refused picture chroma why) := by
  rw [mappable_iff hh.find]
  cases hp : s.plane? chroma with
  | none =>
    refine .inr ⟨fun ⟨plane, hplane, _⟩ => (nomatch hplane), .unknownPlane chroma, ?_, .unknown⟩
    unfold Picture.locate
    rw [hp]
    rfl
  | some plane =>
    have hfactors := (hh.fits hp).factors
    by_cases hfits : r.right ≤ picture.window.hsize ∧ r.bottom ≤ picture.window.vsize
    · have hf : r.fits (picture.visible s) = true := Region.fits_iff.mpr hfits
      cases hc : r.checkPlane plane.desc.hsub plane.desc.vsub with
      | ok u =>
        have hr := (Region.checkPlane_eq_ok hfactors.1 hfactors.2.1).mp hc
        exact .inl ⟨⟨plane, rfl, hfits.1, hfits.2, hr⟩, plane, hh.mapping hp hfits.1 hfits.2 hr⟩
      | error why =>
        obtain ⟨what, value, grid, rfl⟩ := Region.checkPlane_eq_error hc
        refine .inr ⟨?_, _, ?_, .misaligned what value grid⟩
        · intro hgiven
          obtain ⟨plane', hplane, -, -, hr⟩ := hgiven
          cases hplane
          rw [(Region.checkPlane_eq_ok (u := ()) hfactors.1 hfactors.2.1).mpr hr] at hc
          cases hc
        · unfold Picture.locate
          simp only [hp, hf, hc, bind, Except.bind, Bool.not_true, Bool.false_eq_true, if_false]
    · have hf : r.fits (picture.visible s) = false := by
        rw [← Bool.not_eq_true, Region.fits_iff]
        exact hfits
      refine .inr ⟨?_, _, ?_, .outside⟩
      · intro hgiven
        obtain ⟨plane', -, hright, hbottom, -⟩ := hgiven
        exact hfits ⟨hright, hbottom⟩
      · unfold Picture.locate
        simp only [hp, hf]
        rfl

theorem mapRead_of_refused (hf : h.find p = .ok (picture, s))
    (hl : picture.locate s chroma r = .error why) :
    mapRead p chroma r h = (.error (.fault why), h) := by
  unfold mapRead
  simp only [Op.bind_run, Op.ask_run, Op.lift_run, Except.mapError_error, hf, hl]

theorem mapWrite_of_refused (hf : h.find p = .ok (picture, s))
    (hl : picture.locate s chroma r = .error why) :
    mapWrite p chroma r h = (.error (.fault why), h) := by
  unfold mapWrite
  simp only [Op.bind_run, Op.ask_run, Op.lift_run, Except.mapError_error, hf, hl]

/-- What comes of a mapping. Every number on the way is a word, what is mapped lies in the plane, and
only the count of mappings is new. -/
structure MapsTo (h : Heap) (p : Handle) (picture : Picture) (s : Storage) (plane : PlaneStore)
    (r : Region) (v : View) (t : Heap) : Prop where
  shape : v.shape =
    ⟨plane.desc.stride, plane.desc.rowBytes r.hsize s.macropixel, plane.desc.rows r.vsize⟩
  words : picture.span? s plane r = some (picture.span s plane r) ∧ v.shape.len? = some v.data.size
  inside : 0 < v.data.size → (picture.span s plane r).range? =
      some ((picture.span s plane r).offset, (picture.span s plane r).offset + v.data.size) ∧
    (picture.span s plane r).offset + v.data.size ≤ plane.data.size
  bytes : ∀ i < v.data.size, v.data[i]? = plane.data[(picture.span s plane r).offset + i]?
  rows : 0 < v.shape.rowBytes → ∀ y < v.shape.rows,
    ∃ row, v.row? y = some row ∧ row.length = v.shape.rowBytes
  heap : t = h.setMapped p picture (picture.mapped + 1)
  mapped : t.mapped p = .ok (picture.mapped + 1)

theorem Holds.mapsTo (hh : Holds h p picture s m) (hw : h.InWords)
    (hm : Mapping picture s chroma r plane v) (hright : r.right ≤ picture.window.hsize)
    (hbottom : r.bottom ≤ picture.window.vsize) :
    MapsTo h p picture s plane r v (h.setMapped p picture (picture.mapped + 1)) where
  shape := hm.shape
  words := by
    have hwords := hw _ s hh.stored?
    refine ⟨hwords.span?_of_fits (Storage.mem_of_plane? hm.named).1 (hh.fits hm.named) hright hbottom, ?_⟩
    rw [v.size_data]
    exact Shape.len?_of_regular hm.regular
  inside := by
    intro hpos
    have hlen : v.data.size = (picture.span s plane r).len := v.size_data.trans (congrArg _ hm.shape)
    have hword : Word.maxSigned ≤ Word.maxUnsigned := by decide
    have hbounded := hm.lies.bounded
    have hstop := hm.lies.stop_le (by omega)
    rw [hlen]
    refine ⟨?_, hstop⟩
    unfold Span.range?
    rw [if_pos (by omega)]
  bytes := by
    intro i hi
    have hlen : v.data.size = (picture.span s plane r).len := v.size_data.trans (congrArg _ hm.shape)
    have hstop := hm.lies.stop_le (by omega)
    exact Bytes.getElem?_eq_of_byte hi (by omega) (hm.bytes i (hlen ▸ hi))
  rows hpos y hy := ⟨_, View.row?_of_lt (hm.regular hpos) hy, View.length_line v y⟩
  heap := rfl
  mapped := by
    unfold mapped
    rw [(hh.setMapped (picture.mapped + 1)).find]
    rfl

/-- How a mapping ends: it is accepted and succeeds, or it is not and reports one of the faults. -/
inductive MapEnds (h : Heap) (p : Handle) (picture : Picture) (s : Storage) (chroma : String) (r : Region)
    (accepted : Prop) (faults : Fault → Prop) (run : Except Stop View × Heap) : Prop where
  | maps {plane : PlaneStore} {v : View} {t : Heap} (haccepted : accepted)
      (hplane : s.plane? chroma = some plane) (hrun : run = (.ok v, t))
      (hmaps : MapsTo h p picture s plane r v t)
  | fails {why : Fault} (haccepted : ¬ accepted) (hwhy : faults why) (hrun : run = (.error (.fault why), h))

namespace MapEnds

variable {accepted : Prop} {faults : Fault → Prop} {run : Except Stop View × Heap} {t : Heap}

theorem ok_iff (he : MapEnds h p picture s chroma r accepted faults run) :
    (∃ v, run.1 = .ok v) ↔ accepted := by
  cases he with
  | maps haccepted hplane hrun hmaps =>
    rw [hrun]
    exact ⟨fun _ => haccepted, fun _ => ⟨_, rfl⟩⟩
  | fails haccepted hwhy hrun =>
    rw [hrun]
    exact ⟨fun ⟨_, hv⟩ => (nomatch hv), fun hgiven => absurd hgiven haccepted⟩

theorem of_ok (he : MapEnds h p picture s chroma r accepted faults run) (hv : run = (.ok v, t)) :
    ∃ plane, s.plane? chroma = some plane ∧ MapsTo h p picture s plane r v t := by
  cases he with
  | maps haccepted hplane hrun hmaps =>
    cases hrun.symm.trans hv
    exact ⟨_, hplane, hmaps⟩
  | fails haccepted hwhy hrun => cases hrun.symm.trans hv

theorem of_error (he : MapEnds h p picture s chroma r accepted faults run) {stop : Stop}
    (hv : run = (.error stop, t)) : t = h ∧ ∃ why, stop = .fault why ∧ faults why := by
  cases he with
  | maps haccepted hplane hrun hmaps => cases hrun.symm.trans hv
  | fails haccepted hwhy hrun =>
    cases hrun.symm.trans hv
    exact ⟨rfl, _, rfl, hwhy⟩

end MapEnds

theorem Holds.mapRead_ends (hh : Holds h p picture s m) (hw : h.InWords) (chroma : String) (r : Region) :
    MapEnds h p picture s chroma r (h.Mappable p chroma r) (r.Refused picture chroma)
      (mapRead p chroma r h) := by
  obtain ⟨hok, plane, v, hm⟩ | ⟨hno, why, hl, hwhy⟩ := hh.mapping_or_refused chroma r
  · obtain ⟨-, -, hright, hbottom, -⟩ := (mappable_iff hh.find).mp hok
    exact .maps hok hm.named (mapRead_of_ok hh.find hm.locate hm.view) (hh.mapsTo hw hm hright hbottom)
  · exact .fails hno hwhy (mapRead_of_refused hh.find hl)

theorem Holds.mapWrite_ends (hh : Holds h p picture s m) (hw : h.InWords) (chroma : String) (r : Region) :
    MapEnds h p picture s chroma r (h.Mappable p chroma r ∧ h.refCount p = 1)
      (fun why => r.Refused picture chroma why ∨ why = .notExclusive (h.refCount p))
      (mapWrite p chroma r h) := by
  have hcount := refCount_eq hh.picture?
  obtain ⟨hok, plane, v, hm⟩ | ⟨hno, why, hl, hwhy⟩ := hh.mapping_or_refused chroma r
  · obtain ⟨-, -, hright, hbottom, -⟩ := (mappable_iff hh.find).mp hok
    by_cases hrefs : h.refs picture.storage = 1
    · exact .maps ⟨hok, hcount.trans hrefs⟩ hm.named (mapWrite_of_ok hh.find hm.locate hrefs hm.view)
        (hh.mapsTo hw hm hright hbottom)
    · refine .fails (fun hgiven => hrefs (hcount.symm.trans hgiven.2)) (.inr ?_)
        (mapWrite_of_shared hh.find hm.locate hrefs)
      rw [hcount]
  · exact .fails (fun hgiven => hno hgiven.1) (.inl hwhy) (mapWrite_of_refused hh.find hl)

/-- A region can be mapped for reading exactly if it is a region of the plane, and for writing if nobody
else has the storage. Of all faults that a mapping could report, only those of the region and, for
writing, that of a shared storage do occur, and then nothing has changed. -/
theorem mapping_complete (hr : Reachable makers h) (hp : h.picture? p = some picture)
    (chroma : String) (r : Region) :
    ((∃ v, (mapRead p chroma r h).1 = .ok v) ↔ h.Mappable p chroma r) ∧
    ((∃ v, (mapWrite p chroma r h).1 = .ok v) ↔ h.Mappable p chroma r ∧ h.refCount p = 1) ∧
    (∀ v t, mapRead p chroma r h = (.ok v, t) ∨ mapWrite p chroma r h = (.ok v, t) →
      ∃ s plane, h.find p = .ok (picture, s) ∧ s.plane? chroma = some plane ∧
        MapsTo h p picture s plane r v t) ∧
    (∀ stop t, mapRead p chroma r h = (.error stop, t) →
      t = h ∧ ∃ why, stop = .fault why ∧ r.Refused picture chroma why) ∧
    (∀ stop t, mapWrite p chroma r h = (.error stop, t) →
      t = h ∧ ∃ why, stop = .fault why ∧
        (r.Refused picture chroma why ∨ why = .notExclusive (h.refCount p))) := by
  obtain ⟨s, m, hh⟩ := hr.sound.holds hp
  have hread := hh.mapRead_ends hr.inWords chroma r
  have hwrite := hh.mapWrite_ends hr.inWords chroma r
  refine ⟨hread.ok_iff, hwrite.ok_iff, ?_, fun _ _ => hread.of_error, fun _ _ => hwrite.of_error⟩
  rintro v t (hrun | hrun)
  · obtain ⟨plane, hplane, hmaps⟩ := hread.of_ok hrun
    exact ⟨s, plane, hh.find, hplane, hmaps⟩
  · obtain ⟨plane, hplane, hmaps⟩ := hwrite.of_ok hrun
    exact ⟨s, plane, hh.find, hplane, hmaps⟩

theorem tallGray_mapped : tallGray.Mappable ⟨0⟩ "y8" ⟨1, 0, 2, 2⟩ ∧
    ∃ v, (mapWrite ⟨0⟩ "y8" ⟨1, 0, 2, 2⟩ tallGray).1 = .ok v := by
  have hp : tallGray.picture? ⟨0⟩ = some ⟨0, ⟨1, 0, 4, 2⟩, 0⟩ := by decide +kernel
  obtain ⟨-, hwrite, -⟩ := mapping_complete reachable_tallGray hp "y8" ⟨1, 0, 2, 2⟩
  have hsize : tallGray.size ⟨0⟩ = .ok ⟨4, 2, 1⟩ := eq_ok_of_toOption (by decide +kernel)
  have hdesc : tallGray.planeDesc ⟨0⟩ "y8" = .ok ⟨8, 1, 1, 1⟩ := eq_ok_of_toOption (by decide +kernel)
  have hmap : tallGray.Mappable ⟨0⟩ "y8" ⟨1, 0, 2, 2⟩ :=
    ⟨by decide +kernel, _, _, hsize, hdesc, by decide, by decide, by decide, by decide, by decide, by decide⟩
  exact ⟨hmap, hwrite.mpr ⟨hmap, by decide +kernel⟩⟩

end Heap

end Planar
