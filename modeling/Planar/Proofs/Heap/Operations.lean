import Planar.Buffer.Clear
import Planar.Buffer.Packed
import Planar.Buffer.Resize
import Planar.Proofs.Heap.Access
set_option autoImplicit false

/-!
Whole operations on one handle, or on a source and a fresh copy: however they end, the heap
stays sound and the changes stay with the handles that were given.
-/

namespace Planar.Heap

variable {h : Heap} {p : Handle}

theorem works_planeRead (p : Handle) (chroma : String) (raw : RawRegion) (h : Heap) :
    Works (· = p) Nobody h (planeRead p chroma raw h).2 := by
  refine Op.bind_related (Op.ask_related _) fun region t ht => ?_
  exact works_mapRead p chroma region t

theorem works_planeWrite (p : Handle) (chroma : String) (raw : RawRegion) (h : Heap) :
    Works (· = p) Nobody h (planeWrite p chroma raw h).2 := by
  refine Op.bind_related (Op.ask_related _) fun region t _ => ?_
  exact Op.bind_related (works_mapWrite p chroma region t) fun view u _ => Op.Tracking.refl u

theorem works_planeUnmap (p : Handle) (chroma : String) (raw : RawRegion) (h : Heap) :
    Works (· = p) Nobody h (planeUnmap p chroma raw h).2 := by
  refine Op.bind_related (Op.ask_related _) fun region t ht => ?_
  exact works_unmap p chroma region t

theorem owns_of_planeWrite {chroma : String} {raw : RawRegion} {region : Region} {view : View}
    {t : Heap} (hw : planeWrite p chroma raw h = (.ok (region, view), t)) : t.Owns p := by
  obtain ⟨region', t', -, hw⟩ := Op.bind_eq_ok.mp hw
  obtain ⟨view', u, hm, hu⟩ := Op.bind_eq_ok.mp hw
  cases hu
  exact owns_of_mapWrite hm

theorem works_resize (p : Handle) (raw : RawResize) (h : Heap) :
    Works (· = p) Nobody h (resize p raw h).2 := by
  refine Op.bind_related (Op.ask_related _) fun request t _ => ?_
  refine Op.bind_related (Op.ask_related _) fun refs u _ => ?_
  exact Op.check_related (works_tryResize p request u)

/-! ### Writes through one handle -/

abbrev Touches (p : Handle) (h t : Heap) : Prop := Works (· = p) (· = p) h t

theorem Works.touches {h t : Heap} (hw : Works (· = p) Nobody h t) : Touches p h t :=
  hw.mono (fun _ hq => hq) fun _ hq => hq.elim

theorem touches_commit (ho : h.Owns p) (chroma : String) (region : Region) (view : View) :
    Touches p h (h.commit p chroma region view) :=
  (works_commit ho chroma region view).mono (fun _ hq => hq.elim) fun _ hq => hq

theorem touches_clearPlane (p : Handle) (raw : RawRegion) (chroma : String) (h : Heap) :
    Touches p h (clearPlane p raw chroma h).2 := by
  refine Op.bind_related (Op.ask_related _) fun region t _ => ?_
  refine Op.bind_related (Op.ask_related _) fun desc u _ => ?_
  refine Op.bind_related (Op.lift_related _) fun pattern v _ => ?_
  refine Op.bind_related (works_mapWrite p chroma region v).touches fun view w hw => ?_
  refine Op.closing_related ?_ fun x => (works_unmap p chroma region x).touches
  refine Op.bind_related (Op.liftStop_related _) fun filled x hx => ?_
  obtain ⟨-, rfl⟩ := Op.liftStop_eq_ok hx
  exact touches_commit (owns_of_mapWrite hw) chroma region filled

theorem touches_clear (p : Handle) (raw : RawRegion) (h : Heap) :
    Touches p h (clear p raw h).2 := by
  refine Op.bind_related (Op.ask_related _) fun chromas t _ => ?_
  exact Op.forM_related (fun chroma u => touches_clearPlane p raw chroma u) chromas t

theorem works_packPlane (p : Handle) (packed : List (List UInt8)) (chroma : String) (h : Heap) :
    Works (· = p) Nobody h (packPlane p packed chroma h).2 := by
  refine Op.bind_related (works_planeRead p chroma .full h) fun view t _ => ?_
  refine Op.bind_related (Op.liftStop_related _) fun rows u _ => ?_
  exact Op.bind_related (works_planeUnmap p chroma .full u) fun _ v _ => Op.Tracking.refl v

theorem works_writePacked (p : Handle) (h : Heap) :
    Works (· = p) Nobody h (writePacked p h).2 := by
  refine Op.bind_related (Op.ask_related _) fun len t _ => ?_
  refine Op.check_related (Op.bind_related (Op.ask_related _) fun chromas u _ => ?_)
  refine Op.bind_related ?_ fun rows v _ => Op.Tracking.refl v
  exact Op.foldlM_related (fun packed chroma v => works_packPlane p packed chroma v) chromas [] u

theorem touches_unpackPlane (p : Handle) (bytes : List UInt8) (chroma : String) (h : Heap) :
    Touches p h (unpackPlane p bytes chroma h).2 := by
  refine Op.bind_related (works_planeWrite p chroma .full h).touches fun ⟨region, view⟩ t ht => ?_
  refine Op.bind_related (Op.liftStop_related _) fun ⟨filled, rest⟩ u hu => ?_
  obtain ⟨-, rfl⟩ := Op.liftStop_eq_ok hu
  refine Op.bind_related (touches_commit (owns_of_planeWrite ht) chroma region filled) fun _ v _ => ?_
  exact Op.bind_related (works_planeUnmap p chroma .full v).touches fun _ w _ => Op.Tracking.refl w

theorem touches_readPacked (p : Handle) (bytes : List UInt8) (h : Heap) :
    Touches p h (readPacked p bytes h).2 := by
  refine Op.bind_related (Op.ask_related _) fun needed t _ => ?_
  refine Op.check_related (Op.bind_related (Op.ask_related _) fun chromas u _ => ?_)
  refine Op.bind_related ?_ fun rest v _ => Op.Tracking.refl v
  exact Op.foldlM_related (fun rest chroma v => touches_unpackPlane p rest chroma v) chromas bytes u

/-! ### Copies -/

abbrev Copies (src dst : Handle) (h t : Heap) : Prop :=
  Works (fun q => q = src ∨ q = dst) (· = dst) h t

theorem Works.source {src : Handle} (dst : Handle) {h t : Heap} (hw : Works (· = src) Nobody h t) :
    Copies src dst h t :=
  hw.mono (fun _ hq => .inl hq) fun _ hq => hq.elim

theorem Touches.destination (src : Handle) {dst : Handle} {h t : Heap} (hw : Touches dst h t) :
    Copies src dst h t :=
  hw.mono (fun _ hq => .inr hq) fun _ hq => hq

theorem copies_copyPlane (src dst : Handle) (overlap : Overlap) (chroma : String) (h : Heap) :
    Copies src dst h (copyPlane src dst overlap chroma h).2 := by
  refine Op.mapFault_related ?_
  refine Op.bind_related ((works_planeRead src chroma _ h).source dst) fun input t _ => ?_
  refine Op.closing_related ?_ fun u => (works_planeUnmap src chroma _ u).source dst
  refine Op.bind_related ((works_planeWrite dst chroma _ t).touches.destination src)
    fun ⟨region, output⟩ u hu => ?_
  refine Op.closing_related ?_ fun v => (works_planeUnmap dst chroma _ v).touches.destination src
  refine Op.bind_related (Op.liftStop_related _) fun copied v hv => ?_
  obtain ⟨-, rfl⟩ := Op.liftStop_eq_ok hv
  exact (touches_commit (owns_of_planeWrite hu) chroma region copied).destination src

theorem copies_copyInto (src dst : Handle) (request : ResizeRequest) (chroma : String) (h : Heap) :
    Copies src dst h (copyInto src dst request chroma h).2 := by
  refine Op.bind_related (Op.ask_related _) fun srcDesc t _ => ?_
  refine Op.bind_related (Op.mapFault_related (Op.ask_related _)) fun dstDesc u _ => ?_
  refine Op.bind_related (Op.lift_related _) fun _ v _ => ?_
  exact Op.check_related (copies_copyPlane src dst request.overlap chroma v)

def fillCopy (src dst : Handle) (request : ResizeRequest) : Op Heap Handle := do
  let size ← Op.ask (Buffers.size dst)
  if size.macropixel ≠ request.size.macropixel then
    throw (.fault (.mismatch (.macropixels request.size.macropixel size.macropixel)))
  let chromas ← Op.ask fun s => .ok (Buffers.planes src s)
  chromas.forM (copyInto src dst request)
  return dst

theorem copies_fillCopy (src dst : Handle) (request : ResizeRequest) (h : Heap) :
    Copies src dst h (fillCopy src dst request h).2 := by
  refine Op.bind_related (Op.ask_related _) fun size t _ => ?_
  refine Op.check_related (Op.bind_related (Op.ask_related _) fun chromas u _ => ?_)
  refine Op.bind_related ?_ fun _ v _ => Op.Tracking.refl v
  exact Op.forM_related (fun chroma v => copies_copyInto src dst request chroma v) chromas u

theorem fillCopy_eq_ok {src dst q : Handle} {request : ResizeRequest} {t : Heap}
    (hf : fillCopy src dst request h = (.ok q, t)) : q = dst := by
  obtain ⟨size, u, -, hf⟩ := Op.bind_eq_ok.mp hf
  rw [Op.check_run] at hf
  split at hf
  · cases hf
  · obtain ⟨chromas, v, -, hf⟩ := Op.bind_eq_ok.mp hf
    obtain ⟨_, w, -, hf⟩ := Op.bind_eq_ok.mp hf
    cases hf
    rfl

def next (h : Heap) : Handle := ⟨h.pictures.size⟩

def withBlank (h : Heap) (m : Manager) (hsize vsize : Nat) : Heap :=
  (h.allocate (m.blankStorage hsize vsize) (m.window hsize vsize)).2

theorem copy_of_grants {m : Manager} {src : Handle} {raw : RawResize} {request : ResizeRequest}
    (hn : normalizeResize src raw h = .ok request)
    (hg : m.Grants request.newHsize request.newVsize) :
    copy m src raw h = Op.orElseUndo (fillCopy src h.next request) (drop h.next)
      (h.withBlank m request.newHsize request.newVsize) := by
  unfold copy
  simp only [Op.bind_run, Op.ask_run, hn]
  have ha := Manager.alloc_of_grants hg h
  simp only [Allocator.alloc, Op.mapFault_of_ok ha]
  rfl

theorem copy_of_not_grants {m : Manager} {src : Handle} {raw : RawResize} {request : ResizeRequest}
    (hn : normalizeResize src raw h = .ok request)
    (hg : ¬ m.Grants request.newHsize request.newVsize) :
    ∃ why, copy m src raw h =
      (.error (.fault (.refused request.newHsize request.newVsize why)), h) := by
  obtain ⟨why, ha⟩ := Manager.alloc_of_not_grants hg h
  refine ⟨why, ?_⟩
  unfold copy
  simp only [Op.bind_run, Op.ask_run, hn, Allocator.alloc, Op.mapFault_of_fault ha]
  rfl

theorem copy_of_unresolved {m : Manager} {src : Handle} {raw : RawResize} {stop : Stop}
    (hn : normalizeResize src raw h = .error stop) : copy m src raw h = (.error stop, h) := by
  unfold copy
  simp only [Op.bind_run, Op.ask_run, hn]

theorem copy_eq_ok {m : Manager} {src q : Handle} {raw : RawResize} {t : Heap} :
    copy m src raw h = (.ok q, t) ↔ ∃ request, normalizeResize src raw h = .ok request ∧
      m.Grants request.newHsize request.newVsize ∧ q = h.next ∧
        fillCopy src h.next request (h.withBlank m request.newHsize request.newVsize) =
          (.ok h.next, t) := by
  constructor
  · intro hc
    cases hn : normalizeResize src raw h with
    | error stop => cases (copy_of_unresolved hn).symm.trans hc
    | ok request =>
      by_cases hg : m.Grants request.newHsize request.newVsize
      · rw [copy_of_grants hn hg, Op.orElseUndo_eq_ok] at hc
        obtain rfl := fillCopy_eq_ok hc
        exact ⟨request, rfl, hg, rfl, hc⟩
      · obtain ⟨why, hrefused⟩ := copy_of_not_grants hn hg
        cases hrefused.symm.trans hc
  · intro hgiven
    obtain ⟨request, hn, hg, rfl, hfill⟩ := hgiven
    rw [copy_of_grants hn hg, Op.orElseUndo_eq_ok]
    exact hfill

/-- Either nothing happens, or there is a new picture, which is given up if it cannot be filled. -/
theorem copy_cases (m : Manager) (src : Handle) (raw : RawResize) (h : Heap) :
    (∃ stop, copy m src raw h = (.error stop, h)) ∨
      ∃ (picture : Picture) (request : ResizeRequest) (t : Heap), h.picture? src = some picture ∧
        m.Grants request.newHsize request.newVsize ∧
          Copies src h.next (h.withBlank m request.newHsize request.newVsize) t ∧
            ((∃ stop, copy m src raw h = (.error stop, t.drop h.next)) ∨
              copy m src raw h = (.ok h.next, t)) := by
  cases hn : normalizeResize src raw h with
  | error stop => exact .inl ⟨stop, copy_of_unresolved hn⟩
  | ok request =>
    by_cases hg : m.Grants request.newHsize request.newVsize
    · have hsrc : ∃ picture, h.picture? src = some picture := by
        cases hp : h.picture? src with
        | some picture => exact ⟨picture, rfl⟩
        | none =>
          simp [normalizeResize, Buffers.size, size, find, hp, bind, Except.bind] at hn
      obtain ⟨picture, hp⟩ := hsrc
      have hc := copies_fillCopy src h.next request (h.withBlank m request.newHsize request.newVsize)
      cases hf : fillCopy src h.next request (h.withBlank m request.newHsize request.newVsize) with
      | mk result t =>
        rw [hf] at hc
        refine .inr ⟨picture, request, t, hp, hg, hc, ?_⟩
        rw [copy_of_grants hn hg]
        cases result with
        | error stop => exact .inl ⟨stop, Op.orElseUndo_of_error hf⟩
        | ok q =>
          obtain rfl := fillCopy_eq_ok hf
          exact .inr (Op.orElseUndo_of_ok hf)
    · obtain ⟨why, hc⟩ := copy_of_not_grants hn hg
      exact .inl ⟨_, hc⟩

end Planar.Heap
