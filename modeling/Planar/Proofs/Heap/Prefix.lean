import Planar.Proofs.Heap.Blanking
set_option autoImplicit false

/-!
Where a clearing stops. Everything that can be refused is refused before the first byte of a plane is
written, so the planes before the refused one are blank and the others untouched.
-/

namespace Planar.Heap

variable {makers : List Manager} {h t : Heap} {p : Handle} {picture : Picture} {s : Storage}
  {m : Manager} {chroma : String} {raw : RawRegion} {r : Region}

/-! ### Planes that can be cleared -/

/-- If the region lies in the picture, its rows have bytes in every plane. -/
def Dense (h : Heap) (p : Handle) (raw : RawRegion) : Prop :=
  ∀ size r, h.size p = .ok size → raw.resolve size = .ok r →
    ∀ chroma desc, h.planeDesc p chroma = .ok desc → 0 < desc.rowBytes r.hsize size.macropixel

/-- The handle is alone with the storage, the plane has the region, and its name tells what is neutral. -/
structure Clearable (h : Heap) (p : Handle) (raw : RawRegion) (chroma : String) : Prop where
  sole : h.refCount p = 1
  region : ∃ r, normalizeRegion p chroma raw h = .ok r
  pattern : ∃ desc fill, h.planeDesc p chroma = .ok desc ∧
    Chroma.neutralFill chroma desc.macropixelSize = .ok fill

theorem Clears.clearable (hc : Clears h p raw chroma r) : Clearable h p raw chroma :=
  ⟨hc.sole, ⟨r, hc.region⟩, hc.pattern⟩

theorem Clearable.exists_clears (hc : Clearable h p raw chroma) : ∃ r, Clears h p raw chroma r := by
  obtain ⟨r, hregion⟩ := hc.region
  exact ⟨r, hregion, hc.pattern, hc.sole⟩

theorem Dense.not_tornAt (hd : h.Dense p raw) (hh : Holds h p picture s m)
    (hn : normalizeRegion p chroma raw h = .ok r) : ¬ h.TornAt p chroma r := by
  intro ht
  obtain ⟨size, desc, hsize, hdesc, hempty, -⟩ := ht
  obtain ⟨-, -, hraw, -⟩ := (normalizeRegion_eq_ok hh).mp hn
  cases (size_of_find hh.find).symm.trans hsize
  have hpos := hd _ r hsize hraw chroma desc hdesc
  exact Nat.ne_of_gt hpos hempty

theorem Dense.clearsAt_iff (hd : h.Dense p raw) (hh : Holds h p picture s m) :
    ClearsAt h p raw chroma ↔ Clearable h p raw chroma := by
  constructor
  · intro hgiven
    obtain ⟨r, hc, -⟩ := hgiven
    exact hc.clearable
  · intro hgiven
    obtain ⟨r, hc⟩ := hgiven.exists_clears
    exact ⟨r, hc, hd.not_tornAt hh hc.region⟩

theorem clearPlane_of_not_clearable (hh : Holds h p picture s m) (hn : ¬ Clearable h p raw chroma) :
    ∃ why, ∀ t, Writing h p picture m t → clearPlane p raw chroma t = (.error (.fault why), t) :=
  clearPlane_refused hh fun _ hc => hn hc.clearable

theorem Dense.clearPlane_keeps (hd : h.Dense p raw) (hh : Holds h p picture s m) {stop : Stop}
    (hrun : clearPlane p raw chroma h = (.error stop, t)) : t = h := by
  -- what fails for one plane fails before anything is new
  by_cases hc : Clearable h p raw chroma
  · obtain ⟨r, hclears, hwhole⟩ := (hd.clearsAt_iff hh).mpr hc
    obtain ⟨f, hf, rfl⟩ := hh.format_of_clears hclears
    obtain ⟨s', hdone, -⟩ := clearPlane_blanks hh hf hclears hwhole
    cases hdone.symm.trans hrun
  · obtain ⟨why, hrefused⟩ := clearPlane_of_not_clearable hh hc
    cases (hrefused h hh.writing).symm.trans hrun
    rfl

/-! ### Shared pictures -/

theorem clearPlane_of_shared (hh : Holds h p picture s m) (hs : h.refCount p ≠ 1) (raw : RawRegion)
    (chroma : String) : (clearPlane p raw chroma h).2 = h := by
  have hn : ¬ Clearable h p raw chroma := fun hc => hs hc.sole
  obtain ⟨why, hrefused⟩ := clearPlane_of_not_clearable hh hn
  rw [hrefused h hh.writing]

theorem clear_of_shared (hh : Holds h p picture s m) (hs : h.refCount p ≠ 1) (raw : RawRegion) :
    (clear p raw h).2 = h := by
  rw [clear_run]
  cases hchromas : planes p h with
  | nil => rfl
  | cons chroma chromas =>
    have hn : ¬ Clearable h p raw chroma := fun hc => hs hc.sole
    obtain ⟨why, hrefused⟩ := clearPlane_of_not_clearable hh hn
    exact congrArg Prod.snd (Op.bind_of_error (hrefused h hh.writing))

/-! ### All planes -/

theorem Dense.clear_eq_ok (hd : h.Dense p raw) (hh : Holds h p picture s m) :
    (∃ t, clear p raw h = (.ok (), t)) ↔ ∀ chroma ∈ planes p h, Clearable h p raw chroma := by
  constructor
  · intro hgiven chroma hchroma
    obtain ⟨t, hrun⟩ := hgiven
    rw [clear_run] at hrun
    have hall := Op.forM_passes _ (fun chroma _ t ht => round_clearPlane ht raw chroma) hh.writing hrun
    exact (hd.clearsAt_iff hh).mp (hall chroma hchroma)
  · intro hall
    rw [clear_run, hh.chromas] at *
    obtain ⟨t, s', r, hrun, -⟩ := blanked_of_forM _ hh (fun _ hf => hf) hh.manager.format.names
      fun chroma hchroma => (hd.clearsAt_iff hh).mpr (hall chroma hchroma)
    exact ⟨t, hrun⟩

/-- A clearing came to a plane that it could not clear. The planes before it went blank as one by one, and
the reason is that of the plane alone. -/
structure StopsAt (h t : Heap) (p : Handle) (raw : RawRegion) (before : List String) (chroma : String)
    (after : List String) (why : Fault) (picture : Picture) (s s' : Storage) (r : Region) : Prop where
  planes : h.planes p = before ++ chroma :: after
  passed : ∀ other ∈ before, Clearable h p raw other
  stopped : ¬ Clearable h p raw chroma
  alone : clearPlane p raw chroma h = (.error (.fault why), h)
  oneByOne : before.forM (clearPlane p raw) h = (.ok (), t)
  run : clear p raw h = (.error (.fault why), t)
  blanked : Blanked h t p raw before picture s s' r
  untouched : ∀ other ∈ chroma :: after, s'.plane? other = s.plane? other

theorem Dense.stopsAt (hd : h.Dense p raw) (hh : Holds h p picture s m)
    (hn : ¬ ∀ chroma ∈ planes p h, Clearable h p raw chroma) :
    ∃ t before chroma after why s' r, StopsAt h t p raw before chroma after why picture s s' r := by
  obtain ⟨before, chroma, after, hplanes, hpassed, hstopped⟩ := Op.runsInto_of_not_forall hn
  obtain ⟨why, hrefused⟩ := clearPlane_of_not_clearable hh hstopped
  have hformats := hh.chromas.symm.trans hplanes
  obtain ⟨fs, rest, hsplit, rfl, -⟩ := List.map_eq_append_iff.mp hformats
  have hnames := hh.manager.format.names
  rw [hformats, List.nodup_append] at hnames
  obtain ⟨t, s', r, hrun, hb⟩ := blanked_of_forM fs hh
    (fun f hf => hsplit ▸ List.mem_append_left rest hf) hnames.1
    fun other hother => (hd.clearsAt_iff hh).mpr (hpassed other hother)
  have hat : Writing h p picture m t := by
    have hkeeps := Op.forM_keeps _ (fun chroma _ t ht => round_clearPlane ht raw chroma) hh.writing
      (Op.not_crashes_of_ok hrun)
    rw [hrun] at hkeeps
    exact hkeeps
  refine ⟨t, _, chroma, after, why, s', r, hplanes, hpassed, hstopped, hrefused h hh.writing, hrun, ?_,
    hb, fun other hother => hb.rest.elsewhere other fun hmem => ?_⟩
  · rw [clear_run, hplanes]
    exact Op.forM_append_of_error hrun (hrefused t hat)
  · exact hnames.2.2 other hmem other hother rfl

theorem forall_clearable_iff (hh : Holds h p picture s m) :
    (∀ chroma ∈ planes p h, Clearable h p raw chroma) ↔ h.refCount p = 1 ∧
      ∀ chroma ∈ planes p h, (∃ r, normalizeRegion p chroma raw h = .ok r) ∧
        ∃ desc fill, h.planeDesc p chroma = .ok desc ∧
          Chroma.neutralFill chroma desc.macropixelSize = .ok fill := by
  constructor
  · intro hall
    obtain ⟨f, hf⟩ := List.exists_mem_of_ne_nil _ hh.manager.format.nonempty
    have hfirst := hall f.chroma (hh.chromas ▸ List.mem_map_of_mem hf)
    exact ⟨hfirst.sole, fun chroma hchroma => ⟨(hall chroma hchroma).region, (hall chroma hchroma).pattern⟩⟩
  · intro hgiven chroma hchroma
    exact ⟨hgiven.1, (hgiven.2 chroma hchroma).1, (hgiven.2 chroma hchroma).2⟩

/-- A picture is cleared exactly if nobody shares it and every plane has the region and a neutral value.
Otherwise the clearing stops at the first plane that is refused, and what fails for one plane, or for a
picture that is shared, leaves all as it was. -/
theorem clear_stops_at_first_refusal (hr : Reachable makers h) (hp : h.picture? p = some picture)
    (hd : h.Dense p raw) :
    ((∃ t, clear p raw h = (.ok (), t)) ↔ h.refCount p = 1 ∧
      ∀ chroma ∈ h.planes p, (∃ r, normalizeRegion p chroma raw h = .ok r) ∧
        ∃ desc fill, h.planeDesc p chroma = .ok desc ∧
          Chroma.neutralFill chroma desc.macropixelSize = .ok fill) ∧
      ((∃ t, clear p raw h = (.ok (), t)) ∨ ∃ t before chroma after why s s' r,
        StopsAt h t p raw before chroma after why picture s s' r) ∧
      (∀ chroma stop t, clearPlane p raw chroma h = (.error stop, t) → t = h) ∧
      (h.refCount p ≠ 1 →
        (clear p raw h).2 = h ∧ ∀ chroma, (clearPlane p raw chroma h).2 = h) := by
  obtain ⟨s, m, hh⟩ := hr.sound.holds hp
  have hok := hd.clear_eq_ok hh
  refine ⟨hok.trans (forall_clearable_iff hh), ?_, fun _ _ _ => hd.clearPlane_keeps hh,
    fun hs => ⟨clear_of_shared hh hs raw, clearPlane_of_shared hh hs raw⟩⟩
  by_cases hall : ∀ chroma ∈ planes p h, Clearable h p raw chroma
  · exact .inl (hok.mpr hall)
  · obtain ⟨t, before, chroma, after, why, s', r, hstops⟩ := hd.stopsAt hh hall
    exact .inr ⟨t, before, chroma, after, why, s, s', r, hstops⟩

/-! ### A plane of unknown content -/

def mixed : PictureFormat := ⟨1, [⟨"v8", 1, 1, 1⟩, ⟨"x8", 1, 1, 1⟩]⟩

def mixedConfig : Config := { format := .custom mixed }

def mixedManager : Manager := .build mixed mixedConfig

def mixedPicture : Heap := applyAll [.alloc mixedManager 2 2] .empty

theorem reachable_mixedPicture : Reachable [mixedManager] mixedPicture :=
  have hm : (Action.alloc mixedManager 2 2).makers .empty = [mixedManager] := by decide +kernel
  have hlegal : (Action.alloc mixedManager 2 2).Legal := by
    intro m hm
    obtain rfl := Option.some.inj hm
    have hconfig : Manager.ofConfig mixedConfig = .ok mixedManager := rfl
    exact .ofConfig Word.maxSigned hconfig
  hm ▸ .step (.alloc mixedManager 2 2) hlegal .empty

theorem dense_mixedPicture : mixedPicture.Dense ⟨0⟩ .full := by
  intro size r hsize hraw chroma desc hdesc
  have hsize' : size = ⟨2, 2, 1⟩ := Except.ok.inj (hsize.symm.trans (by decide +kernel))
  subst hsize'
  have hraw' : RawRegion.full.resolve ⟨2, 2, 1⟩ = .ok ⟨0, 0, 2, 2⟩ := by decide +kernel
  cases hraw'.symm.trans hraw
  have hf : mixedPicture.find ⟨0⟩ = .ok (⟨0, ⟨0, 0, 2, 2⟩, 0⟩, mixedManager.blankStorage 2 2) := by
    decide +kernel
  obtain ⟨plane, hplane, rfl⟩ := (planeDesc_eq_ok hf).mp hdesc
  have hall : ∀ plane ∈ (mixedManager.blankStorage 2 2).planes, 0 < plane.desc.rowBytes 2 1 := by
    decide +kernel
  exact hall plane (Storage.mem_of_plane? hplane).1

theorem mixedPicture_stops : ∃ t s s' r, StopsAt mixedPicture t ⟨0⟩ .full ["v8"] "x8" []
    (.unsupported (.chromaName "x8" .unknownLetter)) ⟨0, ⟨0, 0, 2, 2⟩, 0⟩ s s' r := by
  have hp : mixedPicture.picture? ⟨0⟩ = some ⟨0, ⟨0, 0, 2, 2⟩, 0⟩ := by decide +kernel
  have hv : (clearPlane (⟨0⟩ : Handle) .full "v8" mixedPicture).1 = .ok () := by decide +kernel
  have hx : (clearPlane (⟨0⟩ : Handle) .full "x8" mixedPicture).1 =
      .error (.fault (.unsupported (.chromaName "x8" .unknownLetter))) := by decide +kernel
  have hall : (clear (⟨0⟩ : Handle) .full mixedPicture).1 ≠ .ok () := by decide +kernel
  have hplanes : mixedPicture.planes ⟨0⟩ = ["v8", "x8"] := by decide +kernel
  obtain ⟨-, hdone | ⟨t, before, chroma, after, why, s, s', r, hstops⟩, -⟩ :=
    clear_stops_at_first_refusal reachable_mixedPicture hp dense_mixedPicture
  · obtain ⟨t, hrun⟩ := hdone
    exact absurd (congrArg Prod.fst hrun) hall
  · have hsplit := hplanes.symm.trans hstops.planes
    have halone := congrArg Prod.fst hstops.alone
    rcases before with _ | ⟨first, _ | ⟨second, before⟩⟩
    · cases hsplit
      cases hv.symm.trans halone
    · cases hsplit
      cases hx.symm.trans halone
      exact ⟨t, s, s', r, hstops⟩
    · simp at hsplit

end Planar.Heap
