import Planar.Proofs.Heap.Run
set_option autoImplicit false

/-!
What the primitive changes of a heap respect, all calls respect. So an invariant of the heaps that
calls can lead to only has to be checked against these changes, of which there are five.
-/

namespace Planar.Heap

/-- Calls are made of these changes and of nothing else. -/
class Primitive (R : Heap → Heap → Prop) : Prop extends Op.Tracking R where
  setPicture : ∀ h p o, R h (h.setPicture p o)
  setRefs : ∀ h i count, R h (h.setRefs i count)
  addPicture : ∀ h picture, R h (h.addPicture picture).2
  write : ∀ h i chroma start view, R h (h.mapStorage i fun s =>
    { s with planes := Storage.writePlane chroma start view s.planes })
  withBlank : ∀ h (m : Manager) hsize vsize, m.Grants hsize vsize → R h (h.withBlank m hsize vsize)

variable {R : Heap → Heap → Prop} [Primitive R]

/-! ### Access -/

theorem related_mapRead (p : Handle) (chroma : String) (region : Region) (h : Heap) :
    R h (mapRead p chroma region h).2 := by
  obtain ⟨stop, hr⟩ | ⟨picture, s, plane, span, view, -, -, -, hr⟩ := mapRead_cases p chroma region h
  · rw [hr]
    exact Op.Tracking.refl h
  · rw [hr]
    exact Primitive.setPicture h p _

theorem related_mapWrite (p : Handle) (chroma : String) (region : Region) (h : Heap) :
    R h (mapWrite p chroma region h).2 := by
  obtain ⟨stop, hr⟩ | ⟨picture, s, plane, span, view, -, -, -, -, hr⟩ :=
    mapWrite_cases p chroma region h
  · rw [hr]
    exact Op.Tracking.refl h
  · rw [hr]
    exact Primitive.setPicture h p _

theorem related_unmap (p : Handle) (chroma : String) (region : Region) (h : Heap) :
    R h (unmap p chroma region h).2 := by
  obtain ⟨stop, hr⟩ | ⟨picture, s, -, hr⟩ := unmap_cases p chroma region h
  · rw [hr]
    exact Op.Tracking.refl h
  · rw [hr]
    exact Primitive.setPicture h p _

theorem related_tryResize (p : Handle) (request : ResizeRequest) (h : Heap) :
    R h (tryResize p request h).2 := by
  obtain ⟨stop, hr⟩ | ⟨picture, s, w, -, -, hr⟩ := tryResize_cases p request h
  · rw [hr]
    exact Op.Tracking.refl h
  · rw [hr]
    exact Primitive.setPicture h p _

theorem related_commit (p : Handle) (chroma : String) (region : Region) (view : View) (h : Heap) :
    R h (h.commit p chroma region view) := by
  cases hf : h.find p with
  | error stop =>
    unfold commit
    rw [hf]
    exact Op.Tracking.refl h
  | ok found =>
    obtain ⟨picture, s⟩ := found
    cases hl : picture.locate s chroma region with
    | error why =>
      unfold commit
      simp only [hf, hl]
      exact Op.Tracking.refl h
    | ok located =>
      rw [commit_of_ok hf hl]
      exact Primitive.write h _ chroma _ view

theorem related_planeRead (p : Handle) (chroma : String) (raw : RawRegion) (h : Heap) :
    R h (planeRead p chroma raw h).2 :=
  Op.bind_related (Op.ask_related _) fun region t _ => related_mapRead p chroma region t

theorem related_planeWrite (p : Handle) (chroma : String) (raw : RawRegion) (h : Heap) :
    R h (planeWrite p chroma raw h).2 := by
  refine Op.bind_related (Op.ask_related _) fun region t _ => ?_
  exact Op.bind_related (related_mapWrite p chroma region t) fun view u _ => Op.Tracking.refl u

theorem related_planeUnmap (p : Handle) (chroma : String) (raw : RawRegion) (h : Heap) :
    R h (planeUnmap p chroma raw h).2 :=
  Op.bind_related (Op.ask_related _) fun region t _ => related_unmap p chroma region t

/-! ### Operations on one handle -/

theorem related_resize (p : Handle) (raw : RawResize) (h : Heap) : R h (resize p raw h).2 := by
  refine Op.bind_related (Op.ask_related _) fun request t _ => ?_
  refine Op.bind_related (Op.ask_related _) fun refs u _ => ?_
  exact Op.check_related (related_tryResize p request u)

theorem related_clearPlane (p : Handle) (raw : RawRegion) (chroma : String) (h : Heap) :
    R h (clearPlane p raw chroma h).2 := by
  refine Op.bind_related (Op.ask_related _) fun region t _ => ?_
  refine Op.bind_related (Op.ask_related _) fun desc u _ => ?_
  refine Op.bind_related (Op.lift_related _) fun pattern v _ => ?_
  refine Op.bind_related (related_mapWrite p chroma region v) fun view w _ => ?_
  refine Op.closing_related ?_ fun x => related_unmap p chroma region x
  exact Op.bind_related (Op.liftStop_related _) fun filled x _ => related_commit p chroma region filled x

theorem related_clear (p : Handle) (raw : RawRegion) (h : Heap) : R h (clear p raw h).2 := by
  refine Op.bind_related (Op.ask_related _) fun chromas t _ => ?_
  exact Op.forM_related (fun chroma u => related_clearPlane p raw chroma u) chromas t

theorem related_packPlane (p : Handle) (packed : List (List UInt8)) (chroma : String) (h : Heap) :
    R h (packPlane p packed chroma h).2 := by
  refine Op.bind_related (related_planeRead p chroma .full h) fun view t _ => ?_
  refine Op.bind_related (Op.liftStop_related _) fun rows u _ => ?_
  exact Op.bind_related (related_planeUnmap p chroma .full u) fun _ v _ => Op.Tracking.refl v

theorem related_writePacked (p : Handle) (h : Heap) : R h (writePacked p h).2 := by
  refine Op.bind_related (Op.ask_related _) fun len t _ => ?_
  refine Op.check_related (Op.bind_related (Op.ask_related _) fun chromas u _ => ?_)
  refine Op.bind_related ?_ fun rows v _ => Op.Tracking.refl v
  exact Op.foldlM_related (fun packed chroma v => related_packPlane p packed chroma v) chromas [] u

theorem related_unpackPlane (p : Handle) (bytes : List UInt8) (chroma : String) (h : Heap) :
    R h (unpackPlane p bytes chroma h).2 := by
  refine Op.bind_related (related_planeWrite p chroma .full h) fun ⟨region, view⟩ t _ => ?_
  refine Op.bind_related (Op.liftStop_related _) fun ⟨filled, rest⟩ u _ => ?_
  refine Op.bind_related (related_commit p chroma region filled u) fun _ v _ => ?_
  exact Op.bind_related (related_planeUnmap p chroma .full v) fun _ w _ => Op.Tracking.refl w

theorem related_readPacked (p : Handle) (bytes : List UInt8) (h : Heap) :
    R h (readPacked p bytes h).2 := by
  refine Op.bind_related (Op.ask_related _) fun needed t _ => ?_
  refine Op.check_related (Op.bind_related (Op.ask_related _) fun chromas u _ => ?_)
  refine Op.bind_related ?_ fun rest v _ => Op.Tracking.refl v
  exact Op.foldlM_related (fun rest chroma v => related_unpackPlane p rest chroma v) chromas bytes u

/-! ### Handles that come and go -/

theorem related_share (p : Handle) (h : Heap) : R h (share p h).2 := by
  unfold share
  cases h.picture? p with
  | none => exact Op.Tracking.refl h
  | some picture => exact Op.Tracking.trans (Primitive.setRefs h _ _) (Primitive.addPicture _ _)

theorem related_drop (p : Handle) (h : Heap) : R h (h.drop p) := by
  unfold drop
  cases h.picture? p with
  | none => exact Op.Tracking.refl h
  | some picture => exact Op.Tracking.trans (Primitive.setRefs h _ _) (Primitive.setPicture _ p none)

theorem related_succeed (p q : Handle) (h : Heap) : R h (h.succeed p q) := by
  unfold succeed
  cases h.picture? q with
  | none => exact Op.Tracking.refl h
  | some picture =>
    have hleave : R (h.drop p) ((h.drop p).setPicture q none) := Primitive.setPicture _ q none
    exact Op.Tracking.trans (Op.Tracking.trans (related_drop p h) hleave) (Primitive.setPicture _ p _)

theorem related_alloc (m : Manager) (hsize vsize : Nat) (h : Heap) : R h (m.alloc hsize vsize h).2 := by
  by_cases hg : m.Grants hsize vsize
  · rw [Manager.alloc_of_grants hg]
    exact Primitive.withBlank h m hsize vsize hg
  · obtain ⟨why, hr⟩ := Manager.alloc_of_not_grants hg h
    rw [hr]
    exact Op.Tracking.refl h

/-! ### Copies -/

theorem related_copyPlane (src dst : Handle) (overlap : Overlap) (chroma : String) (h : Heap) :
    R h (copyPlane src dst overlap chroma h).2 := by
  refine Op.mapFault_related ?_
  refine Op.bind_related (related_planeRead src chroma _ h) fun input t _ => ?_
  refine Op.closing_related ?_ fun u => related_planeUnmap src chroma _ u
  refine Op.bind_related (related_planeWrite dst chroma _ t) fun ⟨region, output⟩ u _ => ?_
  refine Op.closing_related ?_ fun v => related_planeUnmap dst chroma _ v
  exact Op.bind_related (Op.liftStop_related _) fun copied v _ => related_commit dst chroma region copied v

theorem related_copyInto (src dst : Handle) (request : ResizeRequest) (chroma : String) (h : Heap) :
    R h (copyInto src dst request chroma h).2 := by
  refine Op.bind_related (Op.ask_related _) fun srcDesc t _ => ?_
  refine Op.bind_related (Op.mapFault_related (Op.ask_related _)) fun dstDesc u _ => ?_
  refine Op.bind_related (Op.lift_related _) fun _ v _ => ?_
  exact Op.check_related (related_copyPlane src dst request.overlap chroma v)

theorem related_fillCopy (src dst : Handle) (request : ResizeRequest) (h : Heap) :
    R h (fillCopy src dst request h).2 := by
  refine Op.bind_related (Op.ask_related _) fun size t _ => ?_
  refine Op.check_related (Op.bind_related (Op.ask_related _) fun chromas u _ => ?_)
  refine Op.bind_related ?_ fun _ v _ => Op.Tracking.refl v
  exact Op.forM_related (fun chroma v => related_copyInto src dst request chroma v) chromas u

theorem related_copy (m : Manager) (src : Handle) (raw : RawResize) (h : Heap) :
    R h (copy m src raw h).2 := by
  cases hn : normalizeResize src raw h with
  | error stop =>
    rw [copy_of_unresolved hn]
    exact Op.Tracking.refl h
  | ok request =>
    by_cases hg : m.Grants request.newHsize request.newVsize
    · rw [copy_of_grants hn hg]
      have hblank : R h _ := Primitive.withBlank h m request.newHsize request.newVsize hg
      have hfill := related_fillCopy (R := R) src h.next request
        (h.withBlank m request.newHsize request.newVsize)
      cases hf : fillCopy src h.next request (h.withBlank m request.newHsize request.newVsize) with
      | mk result t =>
        rw [hf] at hfill
        cases result with
        | ok q =>
          rw [Op.orElseUndo_of_ok hf]
          exact Op.Tracking.trans hblank hfill
        | error stop =>
          rw [Op.orElseUndo_of_error hf]
          exact Op.Tracking.trans (Op.Tracking.trans hblank hfill) (related_drop h.next t)
    · obtain ⟨why, hr⟩ := copy_of_not_grants hn hg
      rw [hr]
      exact Op.Tracking.refl h

theorem related_replace (m : Manager) (p : Handle) (raw : RawResize) (h : Heap) :
    R h (replace m p raw h).2 :=
  Op.bind_related (related_copy m p raw h) fun copied t _ => related_succeed p copied t

theorem related_resizeOrReplace (m : Manager) (p : Handle) (raw : RawResize) (h : Heap) :
    R h (resizeOrReplace m p raw h).2 := by
  refine Op.bind_related (Op.attempt_related (related_resize p raw h)) fun result t _ => ?_
  cases result with
  | ok _ => exact Op.Tracking.refl t
  | error why =>
    exact Op.check_related
      (Op.bind_related (related_replace m p raw t) fun _ u _ => Op.Tracking.refl u)

/-! ### Runs -/

theorem related_mapWrite_edit (p : Handle) (chroma : String) (region : Region)
    (edits : List (Nat × List UInt8)) (h : Heap) :
    R h ((Action.mapWrite p chroma region edits).apply h) :=
  Op.bind_related (related_mapWrite p chroma region h) fun view t _ =>
    related_commit p chroma region (view.edit edits) t

theorem related_planeWrite_edit (p : Handle) (chroma : String) (raw : RawRegion)
    (edits : List (Nat × List UInt8)) (h : Heap) :
    R h ((Action.planeWrite p chroma raw edits).apply h) := by
  refine Op.bind_related (related_planeWrite p chroma raw h) fun ⟨region, view⟩ t _ => ?_
  exact related_commit p chroma region (view.edit edits) t

theorem related_apply (a : Action) (h : Heap) : R h (a.apply h) := by
  cases a with
  | alloc m hsize vsize =>
    rw [Action.apply, Action.perform, discard_state]
    exact related_alloc m hsize vsize h
  | share p =>
    rw [Action.apply, Action.perform, discard_state]
    exact related_share p h
  | drop p => exact related_drop p h
  | mapRead p chroma region =>
    rw [Action.apply, Action.perform, discard_state]
    exact related_mapRead p chroma region h
  | mapWrite p chroma region edits => exact related_mapWrite_edit p chroma region edits h
  | unmap p chroma region => exact related_unmap p chroma region h
  | planeRead p chroma raw =>
    rw [Action.apply, Action.perform, discard_state]
    exact related_planeRead p chroma raw h
  | planeWrite p chroma raw edits => exact related_planeWrite_edit p chroma raw edits h
  | planeUnmap p chroma raw => exact related_planeUnmap p chroma raw h
  | tryResize p request => exact related_tryResize p request h
  | resize p raw => exact related_resize p raw h
  | clearPlane p raw chroma => exact related_clearPlane p raw chroma h
  | clear p raw => exact related_clear p raw h
  | readPacked p bytes => exact related_readPacked p bytes h
  | writePacked p =>
    rw [Action.apply, Action.perform, discard_state]
    exact related_writePacked p h
  | copy m p raw =>
    rw [Action.apply, Action.perform, discard_state]
    exact related_copy m p raw h
  | replace m p raw => exact related_replace m p raw h
  | resizeOrReplace m p raw =>
    rw [Action.apply, Action.perform, discard_state]
    exact related_resizeOrReplace m p raw h

/-- What the primitive changes keep is true of every heap that calls lead to. -/
theorem Reachable.invariant {I : Heap → Prop} [Primitive fun h t => I h → I t] (hempty : I .empty)
    {makers : List Manager} {h : Heap} (hr : Reachable makers h) : I h := by
  induction hr with
  | empty => exact hempty
  | step a _ _ ih => exact related_apply (R := fun h t => I h → I t) a _ ih

end Planar.Heap
