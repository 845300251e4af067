import Planar.Proofs.Heap.Operations
import Planar.Proofs.Heap.Painting
set_option autoImplicit false

/-!
Access to bytes, however it ends, leaves every size and every layout as it was. So a region that
one picture refuses is refused in all states on the way.
-/

namespace Planar.Heap

/-- All handles have the same sizes and planes. -/
def Steady (h t : Heap) : Prop :=
  ∀ p, size p t = size p h ∧ ∀ chroma, planeDesc p chroma t = planeDesc p chroma h

instance : Op.Tracking Steady where
  refl _ := fun _ => ⟨rfl, fun _ => rfl⟩
  trans ht hu := fun p =>
    ⟨(hu p).1.trans (ht p).1, fun chroma => ((hu p).2 chroma).trans ((ht p).2 chroma)⟩

variable {h t : Heap} {p : Handle} {picture : Picture}

theorem Steady.normalizeRegion (hs : Steady h t) (p : Handle) (chroma : String) (raw : RawRegion) :
    normalizeRegion p chroma raw t = normalizeRegion p chroma raw h := by
  unfold Planar.normalizeRegion
  simp only [Buffers.size, Buffers.planeDesc, (hs p).1, (hs p).2]

theorem Steady.normalizeResize (hs : Steady h t) (p : Handle) (raw : RawResize) :
    normalizeResize p raw t = normalizeResize p raw h := by
  unfold Planar.normalizeResize
  simp only [Buffers.size, (hs p).1]

theorem steady_of_find {q : Handle} (hf : t.find q = h.find q) :
    size q t = size q h ∧ ∀ chroma, planeDesc q chroma t = planeDesc q chroma h := by
  unfold size planeDesc
  rw [hf]
  exact ⟨rfl, fun _ => rfl⟩

theorem steady_setMapped (hp : h.picture? p = some picture) (count : Nat) :
    Steady h (h.setMapped p picture count) := by
  intro q
  by_cases hq : q = p
  · subst hq
    have hnew : (h.setMapped q picture count).picture? q = some { picture with mapped := count } :=
      picture?_setPicture_self h q _ (slot_lt hp)
    have hstored : (h.setMapped q picture count).storage? q = h.storage? q := by
      rw [storage?_eq hnew, storage?_eq hp]
      rfl
    unfold size planeDesc find
    rw [hstored, hnew, hp]
    cases h.storage? q <;> exact ⟨rfl, fun _ => rfl⟩
  · exact steady_of_find (find_congr (picture?_setPicture_ne h p q _ hq) fun _ _ => rfl)

theorem steady_mapStorage {f : Storage → Storage} (i : Nat)
    (hm : ∀ s, (f s).macropixel = s.macropixel)
    (hd : ∀ s chroma, ((f s).plane? chroma).map PlaneStore.desc =
      (s.plane? chroma).map PlaneStore.desc) : Steady h (h.mapStorage i f) := by
  intro q
  cases hq : h.picture? q with
  | none =>
    exact steady_of_find (find_congr rfl fun picture hp => nomatch hq.symm.trans hp)
  | some picture =>
    have hstored := stored?_mapStorage (h := h) i f picture.storage
    by_cases hi : i = picture.storage
    · rw [if_pos hi] at hstored
      unfold size planeDesc find
      rw [picture?_mapStorage, hq, storage?_eq hq, storage?_eq (h := h.mapStorage i f) hq, hstored]
      cases h.stored? picture.storage with
      | none => exact ⟨rfl, fun _ => rfl⟩
      | some s =>
        refine ⟨?_, fun chroma => ?_⟩
        · simp only [Option.map_some, Picture.visible, bind, Except.bind, hm s]
        · have hdesc := hd s chroma
          simp only [Option.map_some, bind, Except.bind]
          cases hp : s.plane? chroma <;> cases hp' : (f s).plane? chroma <;>
            simp only [hp, hp', Option.map_none, Option.map_some, reduceCtorEq] at hdesc
          · rfl
          · exact congrArg Except.ok (Option.some.inj hdesc)
    · rw [if_neg hi] at hstored
      refine steady_of_find (find_congr rfl fun picture' hp => ?_)
      obtain rfl : picture = picture' := Option.some.inj (hq.symm.trans hp)
      exact hstored

theorem map_desc_write (s : Storage) (chroma other : String) (start : Nat) (view : View) :
    ((s.write chroma start view).plane? other).map PlaneStore.desc =
      (s.plane? other).map PlaneStore.desc := by
  by_cases ho : other = chroma
  · subst ho
    cases hp : s.plane? other with
    | some plane =>
      rw [Storage.plane?_write_self hp]
      rfl
    | none =>
      have hn : (s.write other start view).plane? other = none := by
        rw [Storage.plane?, List.find?_eq_none] at hp ⊢
        intro p hmem
        obtain ⟨q, hq, hformat⟩ := List.mem_map.mp
          (Storage.map_format_writePlane other start view s.planes ▸ List.mem_map_of_mem hmem)
        have hc : q.chroma = p.chroma := congrArg PlaneFormat.chroma hformat
        exact hc ▸ hp q hq
      rw [hn]
  · exact congrArg (Option.map _) (Storage.find?_writePlane_ne ho)

structure Kept (h t : Heap) : Prop where
  pictures : t.pictures = h.pictures
  refs : ∀ i, t.refs i = h.refs i
  steady : Steady h t

theorem Kept.refl (h : Heap) : Kept h h := ⟨rfl, fun _ => rfl, Op.Tracking.refl h⟩

theorem Kept.trans {u : Heap} (ht : Kept h t) (hu : Kept t u) : Kept h u :=
  ⟨hu.pictures.trans ht.pictures, fun i => (hu.refs i).trans (ht.refs i),
    Op.Tracking.trans ht.steady hu.steady⟩

theorem Kept.picture? (hk : Kept h t) (p : Handle) : t.picture? p = h.picture? p := by
  unfold Heap.picture?
  rw [hk.pictures]

theorem Kept.refCount (hk : Kept h t) (p : Handle) : t.refCount p = h.refCount p := by
  unfold Heap.refCount
  rw [hk.picture? p]
  cases h.picture? p with
  | none => rfl
  | some picture => exact hk.refs _

theorem Kept.tornAt_iff (hk : Kept h t) {p : Handle} {chroma : String} {r : Region} :
    t.TornAt p chroma r ↔ h.TornAt p chroma r := by
  unfold TornAt
  rw [(hk.steady p).1, (hk.steady p).2]

theorem kept_store_write {i : Nat} {s : Storage} (hi : h.stored? i = some s) (chroma : String)
    (start : Nat) (view : View) : Kept h (h.store i (s.write chroma start view)) where
  pictures := rfl
  refs j := refs_store j
  steady := by
    rw [← mapStorage_eq_store (f := fun s => s.write chroma start view) hi]
    exact steady_mapStorage i (fun _ => rfl) fun s other => map_desc_write s chroma other start view

structure Writing (h : Heap) (p : Handle) (picture : Picture) (m : Manager) (t : Heap) : Prop where
  kept : Kept h t
  holds : ∃ s, Holds t p picture s m

section

variable {s : Storage} {m : Manager}

theorem Holds.writing (hh : Holds h p picture s m) : Writing h p picture m h :=
  ⟨Kept.refl h, s, hh⟩

theorem Writing.write (hw : Writing h p picture m t) (hh : Holds t p picture s m) (chroma : String)
    (start : Nat) (view : View) :
    Writing h p picture m (t.store picture.storage (s.write chroma start view)) :=
  ⟨hw.kept.trans (kept_store_write hh.stored? chroma start view), _,
    hh.store (hh.made.write chroma start view) rfl rfl⟩

end

/-! ### Operations -/

theorem steady_commit (p : Handle) (chroma : String) (region : Region) (view : View) (h : Heap) :
    Steady h (h.commit p chroma region view) := by
  cases hf : h.find p with
  | error stop =>
    unfold commit
    rw [hf]
    exact Op.Tracking.refl h
  | ok found =>
    obtain ⟨picture, s⟩ := found
    cases hl : picture.locate s chroma region with
    | error why =>
      unfold commit
      simp only [hf, hl]
      exact Op.Tracking.refl h
    | ok located =>
      rw [commit_of_ok hf hl]
      exact steady_mapStorage _ (fun _ => rfl) fun s other => map_desc_write s chroma other _ view

theorem steady_planeWrite (p : Handle) (chroma : String) (raw : RawRegion) (h : Heap) :
    Steady h (planeWrite p chroma raw h).2 := by
  refine Op.bind_related (Op.ask_related _) fun region t _ => ?_
  refine Op.bind_related ?_ fun view u _ => Op.Tracking.refl u
  change Steady t (mapWrite p chroma region t).2
  obtain ⟨stop, hr⟩ | ⟨picture, s, plane, span, view, hf, -, -, -, hr⟩ :=
    mapWrite_cases p chroma region t
  · rw [hr]
    exact Op.Tracking.refl t
  · rw [hr]
    exact steady_setMapped (find_eq_ok.mp hf).1 _

theorem steady_planeUnmap (p : Handle) (chroma : String) (raw : RawRegion) (h : Heap) :
    Steady h (planeUnmap p chroma raw h).2 := by
  refine Op.bind_related (Op.ask_related _) fun region t _ => ?_
  change Steady t (unmap p chroma region t).2
  obtain ⟨stop, hr⟩ | ⟨picture, s, hf, hr⟩ := unmap_cases p chroma region t
  · rw [hr]
    exact Op.Tracking.refl t
  · rw [hr]
    exact steady_setMapped (find_eq_ok.mp hf).1 _

theorem steady_unpackPlane (p : Handle) (bytes : List UInt8) (chroma : String) (h : Heap) :
    Steady h (unpackPlane p bytes chroma h).2 := by
  refine Op.bind_related (steady_planeWrite p chroma .full h) fun ⟨region, view⟩ t _ => ?_
  refine Op.bind_related (Op.liftStop_related _) fun ⟨filled, rest⟩ u _ => ?_
  refine Op.bind_related (steady_commit p chroma region filled u) fun _ v _ => ?_
  exact Op.bind_related (steady_planeUnmap p chroma .full v) fun _ w _ => Op.Tracking.refl w

theorem steady_readPacked (p : Handle) (bytes : List UInt8) (h : Heap) :
    Steady h (readPacked p bytes h).2 := by
  refine Op.bind_related (Op.ask_related _) fun needed t _ => ?_
  refine Op.check_related (Op.bind_related (Op.ask_related _) fun chromas u _ => ?_)
  refine Op.bind_related ?_ fun rest v _ => Op.Tracking.refl v
  exact Op.foldlM_related (fun rest chroma v => steady_unpackPlane p rest chroma v) chromas bytes u

end Planar.Heap
