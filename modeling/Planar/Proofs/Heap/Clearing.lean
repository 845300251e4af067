import Planar.Proofs.Chroma.Samples
import Planar.Proofs.Heap.Steady
set_option autoImplicit false

/-!
Blank regions. All that can be refused is refused before a row is touched. Then the rows of the
region get the pattern of their plane, unless there are rows that the view does not hold.
-/

namespace Planar

namespace Heap

variable {h t : Heap} {p : Handle} {picture : Picture} {s : Storage} {m : Manager}
  {chroma : String} {raw : RawRegion} {r : Region} {plane : PlaneStore} {v : View}

/-- What is checked before a region of a plane is blanked. -/
structure Clears (h : Heap) (p : Handle) (raw : RawRegion) (chroma : String) (r : Region) : Prop where
  region : normalizeRegion p chroma raw h = .ok r
  pattern : ∃ desc fill, h.planeDesc p chroma = .ok desc ∧
    Chroma.neutralFill chroma desc.macropixelSize = .ok fill
  sole : h.refCount p = 1

theorem Kept.clears_iff (hk : Kept h t) : Clears t p raw chroma r ↔ Clears h p raw chroma r := by
  have hregion := hk.steady.normalizeRegion p chroma raw
  have hdesc := (hk.steady p).2 chroma
  have hcount := hk.refCount p
  constructor
  · intro hc
    exact ⟨hregion ▸ hc.region, hdesc ▸ hc.pattern, hcount ▸ hc.sole⟩
  · intro hc
    exact ⟨hregion ▸ hc.region, hdesc ▸ hc.pattern, hcount ▸ hc.sole⟩

theorem clearPlane_refused (hh : Holds h p picture s m) (hn : ∀ r, ¬ Clears h p raw chroma r) :
    ∃ why, ∀ t, Writing h p picture m t → clearPlane p raw chroma t = (.error (.fault why), t) := by
  have hregion : ∀ t, Writing h p picture m t →
      normalizeRegion p chroma raw t = normalizeRegion p chroma raw h :=
    fun t hw => hw.kept.steady.normalizeRegion p chroma raw
  have hdescs : ∀ t, Writing h p picture m t →
      Buffers.planeDesc p chroma t = Buffers.planeDesc p chroma h :=
    fun t hw => (hw.kept.steady p).2 chroma
  unfold clearPlane
  obtain ⟨r, hr⟩ | ⟨why, hr⟩ := Stop.ok_or_fault (normalizeRegion_ne_crash hh.find chroma raw)
  · obtain ⟨plane, v, hmap⟩ := exists_mapping hh hr
    have hdesc : Buffers.planeDesc p chroma h = .ok plane.desc := planeDesc_of_find hh.find hmap.named
    cases hfill : Chroma.neutralFill chroma plane.desc.macropixelSize with
    | error why =>
      refine ⟨why, fun t hw => ?_⟩
      simp only [Op.bind_run, Op.ask_run, Op.lift_run, hregion t hw, hr, hdescs t hw, hdesc, hfill]
      rfl
    | ok fill =>
      -- only the handles are left to complain of, and their number stays
      have hshared : h.refs picture.storage ≠ 1 := fun hone =>
        hn r ⟨hr, ⟨plane.desc, fill, hdesc, hfill⟩, (refCount_eq hh.picture?).trans hone⟩
      refine ⟨.notExclusive (h.refs picture.storage), fun t hw => ?_⟩
      obtain ⟨s', hh'⟩ := hw.holds
      obtain ⟨plane', v', hmap'⟩ := exists_mapping hh' ((hregion t hw).trans hr)
      rw [← hw.kept.refs] at hshared ⊢
      simp only [Op.bind_run, Op.ask_run, Op.lift_run, hregion t hw, hr, hdescs t hw, hdesc, hfill,
        Except.mapError_ok, Buffers.mapWrite, mapWrite_of_shared hh'.find hmap'.locate hshared]
  · refine ⟨why, fun t hw => ?_⟩
    simp only [Op.bind_run, Op.ask_run, hregion t hw, hr]

theorem clearPlane_of_not_clears (hh : Holds h p picture s m)
    (hn : ∀ r, ¬ Clears h p raw chroma r) :
    ∃ why, clearPlane p raw chroma h = (.error (.fault why), h) := by
  obtain ⟨why, hrun⟩ := clearPlane_refused hh hn
  exact ⟨why, hrun h hh.writing⟩

theorem clearPlane_of_clears (hh : Holds h p picture s m) (hc : Clears h p raw chroma r)
    (hmap : Mapping picture s chroma r plane v) :
    ∃ fill, Chroma.neutralFill chroma plane.desc.macropixelSize = .ok fill ∧
      clearPlane p raw chroma h = Op.closing
        (do
          let filled ← v.fillRows fill
          Op.update (commit p chroma r filled))
        (unmap p chroma r) (h.setMapped p picture (picture.mapped + 1)) := by
  obtain ⟨desc, fill, hdesc, hfill⟩ := hc.pattern
  rw [planeDesc_of_find hh.find hmap.named] at hdesc
  cases hdesc
  have hdesc : Buffers.planeDesc p chroma h = .ok plane.desc := planeDesc_of_find hh.find hmap.named
  have hone : h.refs picture.storage = 1 := (refCount_eq hh.picture?).symm.trans hc.sole
  refine ⟨fill, hfill, ?_⟩
  unfold clearPlane
  simp only [Op.bind_run, Op.ask_run, Op.lift_run, hc.region, hdesc, hfill, Except.mapError_ok,
    Buffers.mapWrite, mapWrite_of_ok hh.find hmap.locate hone hmap.view]
  rfl

theorem tiles_of_mapping (hmap : Mapping picture s chroma r plane v) {fill : List UInt8}
    (hfill : Chroma.neutralFill chroma plane.desc.macropixelSize = .ok fill) :
    fill ≠ [] ∧ v.shape.rowBytes % fill.length = 0 := by
  obtain ⟨hlen, hpos⟩ := Chroma.length_neutralFill hfill
  refine ⟨List.ne_nil_of_length_pos (hlen ▸ hpos), ?_⟩
  rw [hmap.rowBytes, hlen, PlaneDesc.rowBytes, Nat.mul_mod_left]

theorem clearPlane_of_whole (hh : Holds h p picture s m) (hc : Clears h p raw chroma r)
    (hmap : Mapping picture s chroma r plane v) (hw : v.shape.Whole) :
    ∃ fill w, Chroma.neutralFill chroma plane.desc.macropixelSize = .ok fill ∧
      View.Painted v.shape.rows (fun _ c => fill[c % fill.length]?.getD 0) v w ∧
        clearPlane p raw chroma h = (.ok (), h.store picture.storage
          (s.write chroma (picture.span s plane r).offset w)) := by
  obtain ⟨fill, hfill, hrun⟩ := clearPlane_of_clears hh hc hmap
  obtain ⟨hne, htiles⟩ := tiles_of_mapping hmap hfill
  obtain ⟨w, hw, hpaint⟩ := View.fillRows_of_tiles hw hne htiles
  have hback := commit_back hh hc.region hmap w
  have hsteady : normalizeRegion p chroma raw
      ((h.setMapped p picture (picture.mapped + 1)).commit p chroma r w) = .ok r := by
    rw [(steady_commit p chroma r w _).normalizeRegion, (steady_setMapped hh.picture? _).normalizeRegion,
      hc.region]
  simp only [planeUnmap_eq_unmap hsteady] at hback
  refine ⟨fill, w, hfill, hpaint, hrun.trans (Op.closing_eq_ok.mpr ⟨_, ?_, hback⟩)⟩
  exact Op.bind_of_ok (Op.liftStop_of_ok hw _)

theorem clearPlane_of_torn (hh : Holds h p picture s m) (hc : Clears h p raw chroma r)
    (hmap : Mapping picture s chroma r plane v) (ht : v.shape.Torn) :
    (clearPlane p raw chroma).Crashes h := by
  obtain ⟨fill, hfill, hrun⟩ := clearPlane_of_clears hh hc hmap
  have hbody := View.fillRows_of_torn ht (tiles_of_mapping hmap hfill).1
  unfold Op.Crashes
  rw [hrun]
  refine Op.Crashes.closing (Op.Crashes.bind ?_ _) _
  unfold Op.Crashes
  rw [Op.liftStop_run, hbody]

/-! ### All planes -/

/-- Everything is in order to blank the region, and its rows are all there. -/
def ClearsAt (h : Heap) (p : Handle) (raw : RawRegion) (chroma : String) : Prop :=
  ∃ r, Clears h p raw chroma r ∧ ¬ h.TornAt p chroma r

def ClearsTorn (h : Heap) (p : Handle) (raw : RawRegion) (chroma : String) : Prop :=
  ∃ r, Clears h p raw chroma r ∧ h.TornAt p chroma r

theorem round_clearPlane (hw : Writing h p picture m t) (raw : RawRegion) (chroma : String) :
    Op.Round (clearPlane p raw) (Writing h p picture m) (ClearsAt h p raw) (ClearsTorn h p raw)
      chroma t := by
  obtain ⟨s, hh⟩ := hw.holds
  by_cases hany : ∃ r, Clears t p raw chroma r
  · obtain ⟨r, hc⟩ := hany
    have hc' := hw.kept.clears_iff.mp hc
    obtain ⟨plane, v, hmap⟩ := exists_mapping hh hc.region
    have htorn : h.TornAt p chroma r ↔ v.shape.Torn :=
      hw.kept.tornAt_iff.symm.trans (tornAt_iff hh.find hmap)
    by_cases ht : v.shape.Torn
    · exact .stops ⟨r, hc', htorn.mpr ht⟩ (clearPlane_of_torn hh hc hmap ht)
    · obtain ⟨fill, w, -, -, hrun⟩ := clearPlane_of_whole hh hc hmap (hmap.whole ht)
      refine .passes ⟨r, hc', mt htorn.mp ht⟩ ?_ hrun (hw.write hh ..)
      rintro ⟨r', hc'', ht'⟩
      obtain rfl := Except.ok.inj (hc'.region.symm.trans hc''.region)
      exact ht (htorn.mp ht')
  · have hnone : ∀ r, ¬ Clears h p raw chroma r := fun r hc => hany ⟨r, hw.kept.clears_iff.mpr hc⟩
    obtain ⟨why, hrun⟩ := clearPlane_of_not_clears hh fun r hc => hany ⟨r, hc⟩
    exact .fails (fun ⟨r, hc, _⟩ => hnone r hc) (fun ⟨r, hc, _⟩ => hnone r hc) hrun hw

theorem clear_run (p : Handle) (raw : RawRegion) (h : Heap) :
    clear p raw h = (planes p h).forM (clearPlane p raw) h :=
  Op.bind_of_ok (Op.ask_run _ h)

theorem clear_crashes (hh : Holds h p picture s m) :
    (clear p raw).Crashes h ↔ Op.RunsInto (ClearsAt h p raw) (ClearsTorn h p raw) (planes p h) := by
  rw [Op.Crashes, clear_run]
  exact Op.forM_crashes _ (fun chroma _ t ht => round_clearPlane ht raw chroma) hh.writing

theorem clear_keeps (hh : Holds h p picture s m) (hc : ¬ (clear p raw).Crashes h) :
    Writing h p picture m (clear p raw h).2 := by
  rw [Op.Crashes, clear_run] at hc
  rw [clear_run]
  exact Op.forM_keeps _ (fun chroma _ t ht => round_clearPlane ht raw chroma) hh.writing hc

end Heap

end Planar
