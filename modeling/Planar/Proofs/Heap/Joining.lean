import Planar.Proofs.Heap.Steady
import Planar.Proofs.Heap.Transfer
import Planar.Proofs.Resize
set_option autoImplicit false

/-!
Copies of planes between pictures of any two managers, however they end. A copy is refused before the
first row, or it goes through all rows, or it stops at rows that one of the views does not hold.
-/

namespace Planar.Heap

/-- A source and a destination that share nothing. Each has its own manager. -/
structure Apart (h : Heap) (p q : Handle) (src dst : Picture) (s t : Storage) (m k : Manager) : Prop where
  source : Holds h p src s m
  destination : Holds h q dst t k
  handles : q ≠ p
  storages : dst.storage ≠ src.storage
  sole : h.refs dst.storage = 1

variable {h u : Heap} {p q : Handle} {src dst : Picture} {s t t' : Storage} {m k : Manager}
  {chroma : String} {o : Overlap} {rs rd : Region} {plane plane' : PlaneStore} {input output w : View}

theorem Apart.store (ha : Apart h p q src dst s t m k) (ht : t'.MadeBy k) (hh : t'.hsize = t.hsize)
    (hv : t'.vsize = t.vsize) : Apart (h.store dst.storage t') p q src dst s t' m k where
  source := ha.source.store_ne ha.storages
  destination := ha.destination.store ht hh hv
  handles := ha.handles
  storages := ha.storages
  sole := by rw [refs_store, ha.sole]

/-! ### One plane -/

def receive (q : Handle) (chroma : String) (destination : RawRegion) (input : View) : Op Heap Unit := do
  let (region, output) ← planeWrite q chroma destination
  Op.closing
    (do
      let copied ← input.copyRows output
      Op.update (Buffers.commit q chroma region copied))
    (planeUnmap q chroma destination)

theorem copyPlane_eq (p q : Handle) (o : Overlap) (chroma : String) :
    copyPlane p q o chroma = Op.mapFault (.mapping chroma) (do
      let input ← planeRead p chroma (.ofRegion o.src)
      Op.closing (receive q chroma (.ofRegion o.dst) input) (planeUnmap p chroma (.ofRegion o.src))) :=
  rfl

theorem copyPlane_of_source {why : Fault}
    (hn : normalizeRegion p chroma (.ofRegion o.src) h = .error (.fault why)) :
    copyPlane p q o chroma h = (.error (.fault (.mapping chroma why)), h) := by
  rw [copyPlane_eq]
  exact Op.mapFault_of_fault (Op.bind_of_error (planeRead_of_error hn))

theorem copyPlane_of_receive (hh : Holds h p src s m)
    (hn : normalizeRegion p chroma (.ofRegion o.src) h = .ok rs)
    (hin : Mapping src s chroma rs plane input) {why : Fault}
    (hr : receive q chroma (.ofRegion o.dst) input (h.setMapped p src (src.mapped + 1)) =
      (.error (.fault why), h.setMapped p src (src.mapped + 1))) :
    copyPlane p q o chroma h = (.error (.fault (.mapping chroma why)), h) := by
  rw [copyPlane_eq]
  apply Op.mapFault_of_fault
  rw [Op.bind_of_ok (planeRead_of_mapping hh hn hin)]
  exact Op.closing_of_fault hr (planeUnmap_back hh hn)

theorem copyPlane_of_destination (ha : Apart h p q src dst s t m k)
    (hn : normalizeRegion p chroma (.ofRegion o.src) h = .ok rs)
    (hin : Mapping src s chroma rs plane input) {why : Fault}
    (hn' : normalizeRegion q chroma (.ofRegion o.dst) h = .error (.fault why)) :
    copyPlane p q o chroma h = (.error (.fault (.mapping chroma why)), h) := by
  have hsteady := steady_setMapped ha.source.picture? (src.mapped + 1)
  have hmid := (hsteady.normalizeRegion q chroma (.ofRegion o.dst)).trans hn'
  exact copyPlane_of_receive ha.source hn hin (Op.bind_of_error (planeWrite_of_error hmid))

section

variable (ha : Apart h p q src dst s t m k)
  (hn : normalizeRegion p chroma (.ofRegion o.src) h = .ok rs)
  (hn' : normalizeRegion q chroma (.ofRegion o.dst) h = .ok rd)
  (hin : Mapping src s chroma rs plane input) (hout : Mapping dst t chroma rd plane' output)

include ha hn'

theorem Apart.reading : Holds (h.setMapped p src (src.mapped + 1)) q dst t k ∧
    normalizeRegion q chroma (.ofRegion o.dst) (h.setMapped p src (src.mapped + 1)) = .ok rd :=
  ⟨ha.destination.setMapped_ne ha.handles _,
    ((steady_setMapped ha.source.picture? _).normalizeRegion ..).trans hn'⟩

include hout

theorem receive_of_mapping : receive q chroma (.ofRegion o.dst) input
      (h.setMapped p src (src.mapped + 1)) =
    Op.closing
      (do
        let copied ← input.copyRows output
        Op.update (Buffers.commit q chroma rd copied))
      (planeUnmap q chroma (.ofRegion o.dst))
      ((h.setMapped p src (src.mapped + 1)).setMapped q dst (dst.mapped + 1)) := by
  obtain ⟨hdst, hmid⟩ := ha.reading hn'
  unfold receive
  rw [Op.bind_of_ok (planeWrite_of_mapping hdst ha.sole hmid hout)]

include hn hin

theorem copyPlane_of_ok (hcopy : View.copyRows input output = .ok w) :
    copyPlane p q o chroma h =
      (.ok (), h.store dst.storage (t.write chroma (dst.span t plane' rd).offset w)) := by
  obtain ⟨hdst, hmid⟩ := ha.reading hn'
  have hkept := kept_store_write ha.destination.stored? chroma (dst.span t plane' rd).offset w
  have hleft := planeUnmap_back (ha.source.store_ne ha.storages)
    ((hkept.steady.normalizeRegion ..).trans hn)
  rw [← store_setMapped] at hleft
  have hreceived : receive q chroma (.ofRegion o.dst) input (h.setMapped p src (src.mapped + 1)) =
      (.ok (), (h.setMapped p src (src.mapped + 1)).store dst.storage
        (t.write chroma (dst.span t plane' rd).offset w)) := by
    rw [receive_of_mapping ha hn' hout]
    refine Op.closing_eq_ok.mpr ⟨_, ?_, commit_back hdst hmid hout w⟩
    exact (Op.bind_of_ok (Op.liftStop_of_ok hcopy _)).trans (Op.update_run _ _)
  rw [copyPlane_eq]
  apply Op.mapFault_of_ok
  rw [Op.bind_of_ok (planeRead_of_mapping ha.source hn hin)]
  exact Op.closing_eq_ok.mpr ⟨_, hreceived, hleft⟩

theorem copyPlane_of_differ {why : Fault} (hcopy : View.copyRows input output = .error (.fault why)) :
    copyPlane p q o chroma h = (.error (.fault (.mapping chroma why)), h) := by
  obtain ⟨hdst, hmid⟩ := ha.reading hn'
  apply copyPlane_of_receive ha.source hn hin
  rw [receive_of_mapping ha hn' hout]
  refine Op.closing_of_fault (Op.bind_of_error ?_) (planeUnmap_back hdst hmid)
  rw [Op.liftStop_run, hcopy]

theorem copyPlane_of_crash (hcopy : View.copyRows input output = .error .crash) :
    (copyPlane p q o chroma).Crashes h := by
  rw [copyPlane_eq, Op.crashes_mapFault, Op.crashes_bind_of_ok (planeRead_of_mapping ha.source hn hin)]
  apply Op.Crashes.closing
  rw [Op.Crashes, receive_of_mapping ha hn' hout]
  apply Op.Crashes.closing
  apply Op.Crashes.bind
  rw [Op.Crashes, Op.liftStop_run, hcopy]

end

/-! ### All planes -/

/-- What is checked before the shared part of a plane goes over. -/
structure Joins (h : Heap) (p q : Handle) (o : Overlap) (chroma : String) : Prop where
  sampling : ∃ desc desc', h.planeDesc p chroma = .ok desc ∧ h.planeDesc q chroma = .ok desc' ∧
    desc.sameSampling desc' = true
  source : normalizeRegion p chroma (.ofRegion o.src) h = .ok o.src
  destination : normalizeRegion q chroma (.ofRegion o.dst) h = .ok o.dst

def JoinTorn (h : Heap) (p q : Handle) (o : Overlap) (chroma : String) : Prop :=
  h.TornAt p chroma o.src ∨ h.TornAt q chroma o.dst

def JoinsAt (h : Heap) (p q : Handle) (o : Overlap) (chroma : String) : Prop :=
  Joins h p q o chroma ∧ ¬ JoinTorn h p q o chroma

def JoinsTorn (h : Heap) (p q : Handle) (o : Overlap) (chroma : String) : Prop :=
  Joins h p q o chroma ∧ JoinTorn h p q o chroma

theorem Kept.joins_iff (hk : Kept h u) : Joins u p q o chroma ↔ Joins h p q o chroma := by
  have hdesc := (hk.steady p).2 chroma
  have hdesc' := (hk.steady q).2 chroma
  have hsrc := hk.steady.normalizeRegion p chroma (.ofRegion o.src)
  have hdst := hk.steady.normalizeRegion q chroma (.ofRegion o.dst)
  constructor
  · intro hj
    exact ⟨hdesc ▸ hdesc' ▸ hj.sampling, hsrc ▸ hj.source, hdst ▸ hj.destination⟩
  · intro hj
    exact ⟨hdesc ▸ hdesc' ▸ hj.sampling, hsrc ▸ hj.source, hdst ▸ hj.destination⟩

theorem Kept.joinTorn_iff (hk : Kept h u) : JoinTorn u p q o chroma ↔ JoinTorn h p q o chroma := by
  unfold JoinTorn
  rw [hk.tornAt_iff, hk.tornAt_iff]

theorem Kept.joinsAt_iff (hk : Kept h u) : JoinsAt u p q o chroma ↔ JoinsAt h p q o chroma := by
  unfold JoinsAt
  rw [hk.joins_iff, hk.joinTorn_iff]

structure Request (request : ResizeRequest) (m k : Manager) : Prop where
  macropixel : request.size.macropixel = m.format.macropixel
  macropixel' : k.format.macropixel = m.format.macropixel

variable {request : ResizeRequest} {f : PlaneFormat}

theorem copyInto_of_descs {desc desc' : PlaneDesc} (hdesc : planeDesc p chroma h = .ok desc)
    (hdesc' : planeDesc q chroma h = .ok desc')
    (hfactors : desc.checkFactors chroma request.size.macropixel = .ok ()) :
    copyInto p q request chroma h =
      if desc.sameSampling desc' = true then copyPlane p q request.overlap chroma h
      else (.error (.fault (.mismatch (.sampling chroma desc desc'))), h) := by
  have hask : Op.ask (Buffers.planeDesc p chroma) h = (.ok desc, h) := by
    rw [Op.ask_run]
    exact congrArg (·, h) hdesc
  have hask' : Op.ask (Buffers.planeDesc q chroma) h = (.ok desc', h) := by
    rw [Op.ask_run]
    exact congrArg (·, h) hdesc'
  unfold copyInto
  rw [Op.bind_of_ok hask, Op.bind_of_ok (Op.mapFault_of_ok hask'),
    Op.bind_of_ok (Op.lift_of_ok hfactors h), Op.check_run]
  cases desc.sameSampling desc' <;> rfl

theorem copyInto_of_missing {desc : PlaneDesc} {why : Fault} (hdesc : planeDesc p chroma h = .ok desc)
    (hdesc' : planeDesc q chroma h = .error (.fault why)) :
    copyInto p q request chroma h = (.error (.fault (.mismatch (.missingPlane chroma))), h) := by
  have hask : Op.ask (Buffers.planeDesc p chroma) h = (.ok desc, h) := by
    rw [Op.ask_run]
    exact congrArg (·, h) hdesc
  have hask' : Op.ask (Buffers.planeDesc q chroma) h = (.error (.fault why), h) := by
    rw [Op.ask_run]
    exact congrArg (·, h) hdesc'
  unfold copyInto
  rw [Op.bind_of_ok hask]
  exact Op.bind_of_error (Op.mapFault_of_fault hask')

theorem Holds.checkFactors (hh : Holds h p src s m) (hp : s.plane? chroma = some plane)
    (hm : request.size.macropixel = m.format.macropixel) :
    plane.desc.checkFactors chroma request.size.macropixel = .ok () :=
  PlaneDesc.checkFactors_of_pos (hh.fits hp).factors (hm ▸ hh.manager.format.macropixel_pos) chroma

theorem alike_of_sampling (ha : Apart h p q src dst s t m k) (hq : Request request m k)
    (hin : Mapping src s chroma request.overlap.src plane input)
    (hout : Mapping dst t chroma request.overlap.dst plane' output)
    (hsame : plane.desc.sameSampling plane'.desc = true) : View.Alike input output := by
  have hmacro : t.macropixel = s.macropixel := by
    rw [ha.destination.made.macropixel, ha.source.made.macropixel, hq.macropixel']
  simp only [PlaneDesc.sameSampling, Bool.and_eq_true, beq_iff_eq] at hsame
  obtain ⟨⟨hhsub, hvsub⟩, hsize⟩ := hsame
  constructor
  · rw [hin.rows, hout.rows, PlaneDesc.rows, PlaneDesc.rows, hvsub]
    rfl
  · rw [hin.rowBytes, hout.rowBytes, PlaneDesc.rowBytes, PlaneDesc.rowBytes, hhsub, hsize, hmacro]
    rfl

theorem exists_joined (ha : Apart h p q src dst s t m k) (hq : Request request m k)
    (hj : Joins h p q request.overlap chroma) :
    ∃ plane plane' input output, Mapping src s chroma request.overlap.src plane input ∧
      Mapping dst t chroma request.overlap.dst plane' output ∧ View.Alike input output ∧
        plane.desc.sameSampling plane'.desc = true ∧
          (JoinTorn h p q request.overlap chroma ↔ input.shape.Torn ∨ output.shape.Torn) := by
  obtain ⟨plane, input, hin⟩ := exists_mapping ha.source hj.source
  obtain ⟨plane', output, hout⟩ := exists_mapping ha.destination hj.destination
  obtain ⟨desc, desc', hdesc, hdesc', hsame⟩ := hj.sampling
  obtain rfl := Except.ok.inj ((planeDesc_of_find ha.source.find hin.named).symm.trans hdesc)
  obtain rfl := Except.ok.inj ((planeDesc_of_find ha.destination.find hout.named).symm.trans hdesc')
  refine ⟨plane, plane', input, output, hin, hout, alike_of_sampling ha hq hin hout hsame, hsame, ?_⟩
  unfold JoinTorn
  rw [tornAt_iff ha.source.find hin, tornAt_iff ha.destination.find hout]

theorem copyInto_of_sampling (ha : Apart h p q src dst s t m k) (hq : Request request m k)
    (hin : Mapping src s chroma request.overlap.src plane input)
    (hout : Mapping dst t chroma request.overlap.dst plane' output)
    (hsame : plane.desc.sameSampling plane'.desc = true) :
    copyInto p q request chroma h = copyPlane p q request.overlap chroma h := by
  rw [copyInto_of_descs (planeDesc_of_find ha.source.find hin.named)
    (planeDesc_of_find ha.destination.find hout.named)
    (ha.source.checkFactors hin.named hq.macropixel), if_pos hsame]

theorem copyInto_of_whole (ha : Apart h p q src dst s t m k) (hq : Request request m k)
    (hjoins : JoinsAt h p q request.overlap chroma) :
    ∃ plane plane' input output w, Mapping src s chroma request.overlap.src plane input ∧
      Mapping dst t chroma request.overlap.dst plane' output ∧
        plane.desc.sameSampling plane'.desc = true ∧
          View.Painted output.shape.rows input.byte output w ∧
            copyInto p q request chroma h = (.ok (), h.store dst.storage
              (t.write chroma (dst.span t plane' request.overlap.dst).offset w)) := by
  obtain ⟨hj, ht⟩ := hjoins
  obtain ⟨plane, plane', input, output, hin, hout, halike, hsame, htorn⟩ := exists_joined ha hq hj
  rw [htorn, not_or] at ht
  obtain ⟨w, hcopy, hpaint⟩ := View.copyRows_of_alike (hin.whole ht.1) (hout.whole ht.2) halike
  refine ⟨plane, plane', input, output, w, hin, hout, hsame, hpaint, ?_⟩
  rw [copyInto_of_sampling ha hq hin hout hsame]
  exact copyPlane_of_ok ha hj.source hj.destination hin hout hcopy

theorem copyInto_of_torn (ha : Apart h p q src dst s t m k) (hq : Request request m k)
    (hjoins : JoinsTorn h p q request.overlap chroma) :
    (copyInto p q request chroma).Crashes h := by
  obtain ⟨hj, ht⟩ := hjoins
  obtain ⟨plane, plane', input, output, hin, hout, halike, hsame, htorn⟩ := exists_joined ha hq hj
  rw [Op.Crashes, copyInto_of_sampling ha hq hin hout hsame]
  exact copyPlane_of_crash ha hj.source hj.destination hin hout
    (View.copyRows_of_torn halike (htorn.mp ht))

theorem copyInto_of_not_joins (ha : Apart h p q src dst s t m k) (hq : Request request m k)
    (hsigned : request.overlap.src.Signed ∧ request.overlap.dst.Signed)
    (hp : s.plane? chroma = some plane) (hj : ¬ Joins h p q request.overlap chroma) :
    ∃ why, copyInto p q request chroma h = (.error (.fault why), h) := by
  have hdesc := planeDesc_of_find ha.source.find hp
  obtain ⟨desc', hdesc'⟩ | ⟨why, hdesc'⟩ :=
    Stop.ok_or_fault (planeDesc_ne_crash ha.destination.find chroma)
  · rw [copyInto_of_descs hdesc hdesc' (ha.source.checkFactors hp hq.macropixel)]
    by_cases hsame : plane.desc.sameSampling desc' = true
    · rw [if_pos hsame]
      obtain ⟨rs, hn⟩ | ⟨why, hn⟩ := Stop.ok_or_fault (normalizeRegion_ne_crash ha.source.find chroma
        (.ofRegion request.overlap.src))
      · obtain ⟨rd, hn'⟩ | ⟨why, hn'⟩ := Stop.ok_or_fault
          (normalizeRegion_ne_crash ha.destination.find chroma (.ofRegion request.overlap.dst))
        · -- both regions are taken for themselves, so that nothing is left to refuse
          obtain ⟨-, -, hresolve, -⟩ := (normalizeRegion_eq_ok ha.source).mp hn
          obtain ⟨-, -, hresolve', -⟩ := (normalizeRegion_eq_ok ha.destination).mp hn'
          obtain rfl := RawRegion.eq_of_resolve_ofRegion hsigned.1 hresolve
          obtain rfl := RawRegion.eq_of_resolve_ofRegion hsigned.2 hresolve'
          exact absurd ⟨⟨_, _, hdesc, hdesc', hsame⟩, hn, hn'⟩ hj
        · obtain ⟨plane, input, hin⟩ := exists_mapping ha.source hn
          exact ⟨_, copyPlane_of_destination ha hn hin hn'⟩
      · exact ⟨_, copyPlane_of_source hn⟩
    · rw [if_neg hsame]
      exact ⟨_, rfl⟩
  · exact ⟨_, copyInto_of_missing hdesc hdesc'⟩

structure Copying (h : Heap) (p q : Handle) (src dst : Picture) (s : Storage) (m k : Manager)
    (u : Heap) : Prop where
  kept : Kept h u
  apart : ∃ t, Apart u p q src dst s t m k

theorem round_copyInto (hq : Request request m k)
    (hsigned : request.overlap.src.Signed ∧ request.overlap.dst.Signed)
    (hchroma : chroma ∈ m.format.planes.map (·.chroma)) (hc : Copying h p q src dst s m k u) :
    Op.Round (copyInto p q request) (Copying h p q src dst s m k)
      (JoinsAt h p q request.overlap) (JoinsTorn h p q request.overlap) chroma u := by
  obtain ⟨t, ha⟩ := hc.apart
  by_cases hj : Joins u p q request.overlap chroma
  · have hj' := hc.kept.joins_iff.mp hj
    by_cases ht : JoinTorn u p q request.overlap chroma
    · exact .stops ⟨hj', hc.kept.joinTorn_iff.mp ht⟩ (copyInto_of_torn ha hq ⟨hj, ht⟩)
    · have ht' := mt hc.kept.joinTorn_iff.mpr ht
      obtain ⟨plane, plane', input, output, w, -, -, -, -, hrun⟩ := copyInto_of_whole ha hq ⟨hj, ht⟩
      refine .passes ⟨hj', ht'⟩ (fun hs => ht' hs.2) hrun ⟨?_, _,
        ha.store (ha.destination.made.write ..) rfl rfl⟩
      exact hc.kept.trans (kept_store_write ha.destination.stored? ..)
  · have hj' := mt hc.kept.joins_iff.mpr hj
    obtain ⟨f, hf, rfl⟩ := List.mem_map.mp hchroma
    obtain ⟨plane, hp, -⟩ := ha.source.made.plane? ha.source.manager hf
    obtain ⟨why, hrun⟩ := copyInto_of_not_joins ha hq hsigned hp hj
    exact .fails (fun hs => hj' hs.1) (fun hs => hj' hs.1) hrun hc

theorem copyPlane_keeps (hc : Copying h p q src dst s m k u)
    (hn : ¬ (copyPlane p q o chroma).Crashes u) :
    Copying h p q src dst s m k (copyPlane p q o chroma u).2 := by
  obtain ⟨t, ha⟩ := hc.apart
  obtain ⟨rs, hrs⟩ | ⟨why, hrs⟩ :=
    Stop.ok_or_fault (normalizeRegion_ne_crash ha.source.find chroma (.ofRegion o.src))
  · obtain ⟨plane, input, hin⟩ := exists_mapping ha.source hrs
    obtain ⟨rd, hrd⟩ | ⟨why, hrd⟩ :=
      Stop.ok_or_fault (normalizeRegion_ne_crash ha.destination.find chroma (.ofRegion o.dst))
    · obtain ⟨plane', output, hout⟩ := exists_mapping ha.destination hrd
      cases hcopy : View.copyRows input output with
      | ok w =>
        rw [copyPlane_of_ok ha hrs hrd hin hout hcopy]
        exact ⟨hc.kept.trans (kept_store_write ha.destination.stored? ..), _,
          ha.store (ha.destination.made.write ..) rfl rfl⟩
      | error stop =>
        cases stop with
        | fault why => rwa [copyPlane_of_differ ha hrs hrd hin hout hcopy]
        | crash => exact absurd (copyPlane_of_crash ha hrs hrd hin hout hcopy) hn
    · rwa [copyPlane_of_destination ha hrs hin hrd]
  · rwa [copyPlane_of_source hrs]

theorem copyInto_keeps (hq : Request request m k) (hchroma : chroma ∈ m.format.planes.map (·.chroma))
    (hc : Copying h p q src dst s m k u) (hn : ¬ (copyInto p q request chroma).Crashes u) :
    Copying h p q src dst s m k (copyInto p q request chroma u).2 := by
  obtain ⟨t, ha⟩ := hc.apart
  obtain ⟨f, hf, rfl⟩ := List.mem_map.mp hchroma
  obtain ⟨plane, hp, -⟩ := ha.source.made.plane? ha.source.manager hf
  have hdesc := planeDesc_of_find ha.source.find hp
  obtain ⟨desc', hdesc'⟩ | ⟨why, hdesc'⟩ :=
    Stop.ok_or_fault (planeDesc_ne_crash ha.destination.find f.chroma)
  · have hrun := copyInto_of_descs hdesc hdesc' (ha.source.checkFactors hp hq.macropixel)
    by_cases hsame : plane.desc.sameSampling desc' = true
    · rw [if_pos hsame] at hrun
      rw [Op.Crashes, hrun] at hn
      rw [hrun]
      exact copyPlane_keeps hc hn
    · rw [hrun, if_neg hsame]
      exact hc
  · rw [copyInto_of_missing hdesc hdesc']
    exact hc

/-! ### What goes over -/

def copiedParts (src : Picture) (s : Storage) (m : Manager) (o : Overlap) (fs : List PlaneFormat) :
    List (PlaneFormat × (Nat → Nat → UInt8)) :=
  fs.map fun f => (f, f.shows m.format.macropixel (src.absolute o.src) s.byte)

theorem format_of_sampling {plane plane' : PlaneStore} (hc : plane'.chroma = plane.chroma)
    (hs : plane.desc.sameSampling plane'.desc = true) : plane'.format = plane.format := by
  simp only [PlaneDesc.sameSampling, Bool.and_eq_true, beq_iff_eq] at hs
  simp [PlaneStore.format, hc, hs]

theorem copyInto_of_joinsAt (ha : Apart h p q src dst s t m k) (hq : Request request m k)
    (hf : f ∈ m.format.planes) (hj : JoinsAt h p q request.overlap f.chroma) :
    f ∈ k.format.planes ∧ ∃ t', copyInto p q request f.chroma h = (.ok (), h.store dst.storage t') ∧
      Kept h (h.store dst.storage t') ∧
        t.Paints t' k f (f.block k.format.macropixel (dst.absolute request.overlap.dst))
          (f.shows m.format.macropixel (src.absolute request.overlap.src) s.byte) ∧
        t.SameAround t' (dst.absolute request.overlap.dst) := by
  obtain ⟨plane, plane', input, output, w, hin, hout, hsame, hpaint, hrun⟩ := copyInto_of_whole ha hq hj
  have hformat : plane.format = f := by
    obtain ⟨plane₀, hp, rfl⟩ := ha.source.made.plane? ha.source.manager hf
    rw [Option.some.inj (hp.symm.trans hin.named)]
  obtain ⟨hmem, hchroma⟩ := Storage.mem_of_plane? hout.named
  have hformat' : plane'.format = f :=
    (format_of_sampling (hchroma.trans (Storage.mem_of_plane? hin.named).2.symm) hsame).trans hformat
  have hpaints := hout.paints ha.destination.manager ha.destination.made hpaint
  rw [hformat', ha.destination.made.macropixel] at hpaints
  have hkept := kept_store_write ha.destination.stored? f.chroma
    (dst.span t plane' request.overlap.dst).offset w
  refine ⟨?_, _, hrun, hkept, hpaints.congr fun y c hy hcol => ?_, hout.sameAround hpaint⟩
  · rw [← ha.destination.made.planes, ← hformat']
    exact List.mem_map_of_mem hmem
  · rw [hin.byte_format ha.source.manager ha.source.made, hformat]
    · rw [hin.rows_format ha.source.manager ha.source.made, hformat]
      exact hy
    · rw [hin.width_format ha.source.manager ha.source.made, hformat, ← hq.macropixel']
      exact hcol

theorem forM_copyInto (fs : List PlaneFormat) (ha : Apart h p q src dst s t m k)
    (hq : Request request m k) (hf : ∀ f ∈ fs, f ∈ m.format.planes)
    (hn : (fs.map PlaneFormat.chroma).Nodup)
    (hj : ∀ f ∈ fs, JoinsAt h p q request.overlap f.chroma) :
    ∃ t', (fs.map PlaneFormat.chroma).forM (copyInto p q request) h =
        (.ok ⟨⟩, h.store dst.storage t') ∧
      t.PaintsAll t' k (dst.absolute request.overlap.dst) (copiedParts src s m request.overlap fs) ∧
      t.SameAround t' (dst.absolute request.overlap.dst) := by
  induction fs generalizing h t with
  | nil =>
    refine ⟨t, ?_, .nil ha.destination.made, .refl t _⟩
    rw [store_self ha.destination.stored?]
    rfl
  | cons f fs ih =>
    rw [List.map_cons, List.nodup_cons] at hn
    obtain ⟨-, t₁, hrun, hkept, hpaints, haround⟩ :=
      copyInto_of_joinsAt ha hq (hf f List.mem_cons_self) (hj f List.mem_cons_self)
    obtain ⟨t', hrest, hall, haround'⟩ := ih (ha.store hpaints.made hpaints.hsize hpaints.vsize)
      (fun g hg => hf g (List.mem_cons_of_mem f hg)) hn.2
      (fun g hg => hkept.joinsAt_iff.mpr (hj g (List.mem_cons_of_mem f hg)))
    rw [store_store] at hrest
    refine ⟨t', (Op.bind_of_ok hrun).trans hrest, .cons ha.destination.made hpaints hall ?_,
      haround.trans haround'⟩
    simpa [copiedParts] using hn.1

theorem fillCopy_of_macropixel (ha : Apart h p q src dst s t m k) (hq : Request request m k) :
    fillCopy p q request h =
      ((planes p h).forM (copyInto p q request) >>= fun _ => pure q) h := by
  have hask : Op.ask (Buffers.size q) h = (.ok (dst.visible t), h) := by
    rw [Op.ask_run]
    exact congrArg (·, h) (size_of_find ha.destination.find)
  have hsame : ¬ (dst.visible t).macropixel ≠ request.size.macropixel := by
    simp [Picture.visible, ha.destination.made.macropixel, hq.macropixel, hq.macropixel']
  unfold fillCopy
  rw [Op.bind_of_ok hask, Op.check_run, if_neg hsame]
  exact Op.bind_of_ok (Op.ask_run _ h)

/-- A picture of one manager is filled from one of another, and keeps what lies around the overlap. -/
theorem fillCopy_of_joinsAt (ha : Apart h p q src dst s t m k) (hq : Request request m k)
    (hj : ∀ f ∈ m.format.planes, JoinsAt h p q request.overlap f.chroma) :
    ∃ t', fillCopy p q request h = (.ok q, h.store dst.storage t') ∧
      t.PaintsAll t' k (dst.absolute request.overlap.dst)
        (copiedParts src s m request.overlap m.format.planes) ∧
      t.SameAround t' (dst.absolute request.overlap.dst) := by
  obtain ⟨t', hrun, hall, haround⟩ :=
    forM_copyInto m.format.planes ha hq (fun _ hf => hf) ha.source.manager.format.names hj
  rw [← ha.source.chromas] at hrun
  exact ⟨t', (fillCopy_of_macropixel ha hq).trans (Op.bind_of_ok hrun), hall, haround⟩

end Planar.Heap
