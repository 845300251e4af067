import Planar.Proofs.Heap.Packing
import Planar.Proofs.Heap.Steady
set_option autoImplicit false

/-!
Packed images, however their transfer ends. A transfer that gets to its planes goes on until one of them
cannot be mapped in full, which is a fault, or has rows out of reach.
-/

namespace Planar.Heap

variable {h t : Heap} {p : Handle} {picture : Picture} {s : Storage} {m : Manager} {chroma : String}
  {raw : RawRegion} {r : Region} {bytes : List UInt8}

def MapsInFull (h : Heap) (p : Handle) (chroma : String) : Prop :=
  ∃ r, normalizeRegion p chroma .full h = .ok r

/-- The whole window of the plane can be mapped, but some of its rows are out of reach. -/
def FullTorn (h : Heap) (p : Handle) (chroma : String) : Prop :=
  ∃ r, normalizeRegion p chroma .full h = .ok r ∧ h.TornAt p chroma r

theorem Kept.mapsInFull_iff (hk : Kept h t) : t.MapsInFull p chroma ↔ h.MapsInFull p chroma := by
  unfold MapsInFull
  simp only [hk.steady.normalizeRegion]

theorem Kept.fullTorn_iff (hk : Kept h t) : t.FullTorn p chroma ↔ h.FullTorn p chroma := by
  unfold FullTorn
  simp only [hk.steady.normalizeRegion, hk.tornAt_iff]

theorem signed_of_normalize (hh : Holds h p picture s m)
    (hn : normalizeRegion p chroma raw h = .ok r) :
    picture.window.hsize ≤ Word.maxSigned ∧ picture.window.vsize ≤ Word.maxSigned := by
  obtain ⟨plane, -, hraw, -⟩ := (normalizeRegion_eq_ok hh).mp hn
  exact (RawRegion.accepted_of_resolve hraw).signed

theorem not_mapsInFull {stop : Stop} (hn : normalizeRegion p chroma .full h = .error stop) :
    ¬ h.MapsInFull p chroma := by
  rintro ⟨r, hr⟩
  cases hn.symm.trans hr

theorem FullTorn.mapsInFull (ht : h.FullTorn p chroma) : h.MapsInFull p chroma :=
  ht.imp fun _ hr => hr.1

theorem fullTorn_iff_of_mapping {plane : PlaneStore} {v : View} (hh : Holds h p picture s m)
    (hn : normalizeRegion p chroma .full h = .ok r) (hmap : Mapping picture s chroma r plane v) :
    h.FullTorn p chroma ↔ v.shape.Torn := by
  rw [← tornAt_iff hh.find hmap]
  constructor
  · rintro ⟨r', hn', ht⟩
    obtain rfl := Except.ok.inj (hn.symm.trans hn')
    exact ht
  · exact fun ht => ⟨r, hn, ht⟩

theorem planeRead_of_error {stop : Stop} (hn : normalizeRegion p chroma raw h = .error stop) :
    planeRead p chroma raw h = (.error stop, h) := by
  unfold planeRead
  rw [Op.bind_run, Op.ask_run, hn]

theorem planeWrite_of_error {stop : Stop} (hn : normalizeRegion p chroma raw h = .error stop) :
    planeWrite p chroma raw h = (.error stop, h) := by
  unfold planeWrite
  rw [Op.bind_run, Op.ask_run, hn]

/-! ### Writing -/

def Collecting (h : Heap) (p : Handle) (as : List String) (_ : List (List UInt8)) (t : Heap) : Prop :=
  t = h ∧ ∀ chroma ∈ as, chroma ∈ planes p h

theorem turn_packPlane (hh : Holds h p picture s m) (chroma : String) (as : List String)
    (packed : List (List UInt8)) (t : Heap) (hc : Collecting h p (chroma :: as) packed t) :
    Op.Turn (packPlane p) (Collecting h p) (· = h) (h.MapsInFull p) (h.FullTorn p) chroma as packed
      t := by
  obtain ⟨rfl, hmem⟩ := hc
  have hchroma := hmem chroma List.mem_cons_self
  rw [hh.chromas] at hchroma
  obtain ⟨f, hf, rfl⟩ := List.mem_map.mp hchroma
  obtain ⟨r, hr⟩ | ⟨why, hr⟩ := Stop.ok_or_fault (normalizeRegion_ne_crash hh.find f.chroma .full)
  · obtain ⟨plane, v, hmap⟩ := exists_mapping hh hr
    have htorn := fullTorn_iff_of_mapping hh hr hmap
    by_cases ht : v.shape.Torn
    · exact .stops (htorn.mpr ht) (packPlane_of_torn hh hr hmap ht packed)
    · exact .passes ⟨r, hr⟩ (mt htorn.mp ht) (packPlane_of_whole hh hr hmap (hmap.whole ht) packed)
        ⟨rfl, fun c hc => hmem c (List.mem_cons_of_mem _ hc)⟩
  · have hnot := not_mapsInFull hr
    exact .fails hnot (mt FullTorn.mapsInFull hnot) (Op.bind_of_error (planeRead_of_error hr)) rfl

theorem writePacked_of_fault {why : Fault} (hn : packedLen p h = .error (.fault why)) :
    writePacked p h = (.error (.fault why), h) := by
  unfold writePacked
  rw [Op.bind_run, Op.ask_run, hn]

theorem writePacked_of_large {n : Nat} (hn : packedLen p h = .ok n) (hlarge : Word.maxSigned < n) :
    (writePacked p).Crashes h := by
  unfold writePacked
  rw [Op.Crashes, Op.bind_run, Op.ask_run, hn]
  simp only [Op.check_run, if_pos hlarge]

theorem writePacked_crashes (hh : Holds h p picture s m) :
    (writePacked p).Crashes h ↔ ∃ n, packedLen p h = .ok n ∧
      (Word.maxSigned < n ∨ Op.RunsInto (h.MapsInFull p) (h.FullTorn p) (planes p h)) := by
  have hloop := Op.foldlM_crashes (turn_packPlane hh) (planes p h) (b := []) ⟨rfl, fun _ hc => hc⟩
  obtain ⟨n, hn⟩ | ⟨why, hn⟩ := Stop.ok_or_fault (packedLen_ne_crash hh)
  · simp only [hn, Except.ok.injEq, exists_eq_left']
    by_cases hsmall : n ≤ Word.maxSigned
    · rw [Op.Crashes, writePacked_run hn hsmall, ← Op.Crashes, Op.crashes_map, hloop]
      simp only [Nat.not_lt.mpr hsmall, false_or]
    · have hlarge := Nat.lt_of_not_le hsmall
      simp only [writePacked_of_large hn hlarge, hlarge, true_or]
  · simp only [Op.not_crashes_of_fault (writePacked_of_fault hn), hn, reduceCtorEq, false_and,
      exists_false]

theorem writePacked_keeps (hh : Holds h p picture s m) (hc : ¬ (writePacked p).Crashes h) :
    (writePacked p h).2 = h := by
  obtain ⟨n, hn⟩ | ⟨why, hn⟩ := Stop.ok_or_fault (packedLen_ne_crash hh)
  · have hsmall : n ≤ Word.maxSigned := Nat.not_lt.mp fun hlarge =>
      hc ((writePacked_crashes hh).mpr ⟨n, hn, .inl hlarge⟩)
    rw [Op.Crashes, writePacked_run hn hsmall, ← Op.Crashes, Op.crashes_map] at hc
    rw [writePacked_run hn hsmall, Op.map_state]
    exact Op.foldlM_keeps (turn_packPlane hh) (fun _ _ hd => hd.1) _ ⟨rfl, fun _ hmem => hmem⟩ hc
  · rw [writePacked_of_fault hn]

/-! ### Reading -/

/-- A packed image is laid down, and the bytes that are left suffice for the planes that are left. -/
structure Laying (h : Heap) (p : Handle) (picture : Picture) (m : Manager) (as : List String)
    (bytes : List UInt8) (t : Heap) : Prop where
  writing : Writing h p picture m t
  enough : ∃ fs : List PlaneFormat, as = fs.map PlaneFormat.chroma ∧ (∀ f ∈ fs, f ∈ m.format.planes) ∧
    (fs.map fun f => f.area (shown picture m)).sum ≤ bytes.length

theorem turn_unpackPlane (chroma : String) (as : List String) (bytes : List UInt8) (t : Heap)
    (hl : Laying h p picture m (chroma :: as) bytes t) :
    Op.Turn (unpackPlane p) (Laying h p picture m) (Writing h p picture m)
      (fun chroma => h.refCount p = 1 ∧ h.MapsInFull p chroma)
      (fun chroma => h.refCount p = 1 ∧ h.FullTorn p chroma) chroma as bytes t := by
  have hw := hl.writing
  obtain ⟨s, hh⟩ := hw.holds
  obtain ⟨fs, heq, hmem, hlen⟩ := hl.enough
  cases fs with
  | nil => cases heq
  | cons f fs =>
    obtain ⟨rfl, rfl⟩ := List.cons.inj heq
    rw [List.map_cons, List.sum_cons] at hlen
    have hf := hmem f List.mem_cons_self
    have hcount : t.refs picture.storage = h.refCount p :=
      (refCount_eq hh.picture?).symm.trans (hw.kept.refCount p)
    obtain ⟨r, hr⟩ | ⟨why, hr⟩ := Stop.ok_or_fault (normalizeRegion_ne_crash hh.find f.chroma .full)
    · obtain ⟨plane, v, -, hmap, hrows, hcols⟩ := exists_fullMapping hh hf hr
      have harea : v.shape.rows * v.shape.rowBytes = f.area (shown picture m) := by
        rw [hrows, hcols]
        rfl
      have htorn := hw.kept.fullTorn_iff.symm.trans (fullTorn_iff_of_mapping hh hr hmap)
      by_cases hone : t.refs picture.storage = 1
      · by_cases ht : v.shape.Torn
        · exact .stops ⟨hcount.symm.trans hone, htorn.mpr ht⟩ (unpackPlane_of_torn hh hone hr hmap ht)
        · obtain ⟨w, -, hrun⟩ := unpackPlane_of_whole hh hone hr hmap (hmap.whole ht)
            (show v.shape.rows * v.shape.rowBytes ≤ bytes.length by omega)
          have hpasses : h.refCount p = 1 ∧ h.MapsInFull p f.chroma :=
            ⟨hcount.symm.trans hone, hw.kept.mapsInFull_iff.mp ⟨r, hr⟩⟩
          refine .passes hpasses (fun hs => ht (htorn.mp hs.2)) hrun ⟨hw.write hh .., fs, rfl, ?_, ?_⟩
          · exact fun g hg => hmem g (List.mem_cons_of_mem f hg)
          · rw [List.length_drop]
            omega
      · exact .fails (fun hp => hone (hcount.trans hp.1)) (fun hs => hone (hcount.trans hs.1))
          (Op.bind_of_error (planeWrite_of_shared hh hone hr hmap)) hw
    · have hnot : ¬ h.MapsInFull p f.chroma := mt hw.kept.mapsInFull_iff.mpr (not_mapsInFull hr)
      exact .fails (fun hp => hnot hp.2) (fun hs => hnot hs.2.mapsInFull)
        (Op.bind_of_error (planeWrite_of_error hr)) hw

theorem laying_of_packedLen (hh : Holds h p picture s m) (hn : packedLen p h = .ok bytes.length) :
    Laying h p picture m (planes p h) bytes h :=
  ⟨hh.writing, m.format.planes, hh.chromas, fun _ hf => hf,
    Nat.le_of_eq ((packedLen_eq_ok hh).mp hn).1.symm⟩

theorem readPacked_of_ne (hh : Holds h p picture s m) (hn : packedLen p h ≠ .ok bytes.length) :
    ∃ why, readPacked p bytes h = (.error (.fault why), h) := by
  unfold readPacked
  obtain ⟨n, hlen⟩ | ⟨why, hlen⟩ := Stop.ok_or_fault (packedLen_ne_crash hh)
  · rw [Op.bind_run, Op.ask_run, hlen]
    have hne : bytes.length ≠ n := fun heq => hn (heq ▸ hlen)
    simp only [Op.check_run, if_pos hne]
    exact ⟨_, rfl⟩
  · rw [Op.bind_run, Op.ask_run, hlen]
    exact ⟨why, rfl⟩

theorem readPacked_crashes (hh : Holds h p picture s m) :
    (readPacked p bytes).Crashes h ↔ packedLen p h = .ok bytes.length ∧ h.refCount p = 1 ∧
      Op.RunsInto (h.MapsInFull p) (h.FullTorn p) (planes p h) := by
  by_cases hn : packedLen p h = .ok bytes.length
  · have hloop := Op.foldlM_crashes turn_unpackPlane (planes p h) (laying_of_packedLen hh hn)
    rw [Op.Crashes, readPacked_run hn, ← Op.Crashes, Op.crashes_map, hloop, Op.runsInto_and]
    exact (and_iff_right hn).symm
  · obtain ⟨why, hrun⟩ := readPacked_of_ne hh hn
    exact ⟨fun hc => absurd hc (Op.not_crashes_of_fault hrun), fun hc => absurd hc.1 hn⟩

theorem readPacked_keeps (hh : Holds h p picture s m) (hc : ¬ (readPacked p bytes).Crashes h) :
    Writing h p picture m (readPacked p bytes h).2 := by
  by_cases hn : packedLen p h = .ok bytes.length
  · rw [Op.Crashes, readPacked_run hn, ← Op.Crashes, Op.crashes_map] at hc
    rw [readPacked_run hn, Op.map_state]
    exact Op.foldlM_keeps turn_unpackPlane (fun _ _ hl => hl.writing) _ (laying_of_packedLen hh hn) hc
  · obtain ⟨why, hrun⟩ := readPacked_of_ne hh hn
    rw [hrun]
    exact hh.writing

end Planar.Heap
