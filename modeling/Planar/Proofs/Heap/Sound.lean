import Planar.Proofs.Heap.Allocation
import Planar.Proofs.Heap.Basic
set_option autoImplicit false

/-!
Sound heaps: every live handle has a storage that its manager made and a window on the grids,
and every storage knows how many handles it has. The primitive changes keep a heap sound, and
none of them reaches what another handle sees.
-/

namespace Planar

theorem Storage.map_format_writePlane (chroma : String) (start : Nat) (view : View)
    (planes : List PlaneStore) :
    (writePlane chroma start view planes).map PlaneStore.format = planes.map PlaneStore.format := by
  induction planes with
  | nil => rfl
  | cons p planes ih =>
    unfold writePlane
    split
    · rfl
    · rw [List.map_cons, List.map_cons, ih]

theorem Storage.mem_writePlane {chroma : String} {start : Nat} {view : View}
    {planes : List PlaneStore} {p : PlaneStore} (h : p ∈ writePlane chroma start view planes) :
    ∃ q ∈ planes, p.desc = q.desc ∧ p.data.size = q.data.size := by
  induction planes with
  | nil => cases h
  | cons q planes ih =>
    unfold writePlane at h
    split at h
    · rcases List.mem_cons.mp h with rfl | h
      · exact ⟨q, List.mem_cons_self, rfl, by simp [View.putBack]⟩
      · exact ⟨p, List.mem_cons_of_mem q h, rfl, rfl⟩
    · rcases List.mem_cons.mp h with rfl | h
      · exact ⟨p, List.mem_cons_self, rfl, rfl⟩
      · obtain ⟨r, hr, hd⟩ := ih h
        exact ⟨r, List.mem_cons_of_mem q hr, hd⟩

theorem Storage.MadeBy.write {s : Storage} {m : Manager} (hs : s.MadeBy m) (chroma : String)
    (start : Nat) (view : View) :
    Storage.MadeBy { s with planes := writePlane chroma start view s.planes } m where
  macropixel := hs.macropixel
  hgrid := hs.hgrid
  vgrid := hs.vgrid
  planes := (map_format_writePlane ..).trans hs.planes
  roomy := by
    intro p hp
    obtain ⟨q, hq, hd, hz⟩ := mem_writePlane hp
    have hr := hs.roomy q hq
    exact ⟨by rw [hz, hd, hr.size_data], hd ▸ hr.covers, hz ▸ hr.bounded⟩
  aligned := by
    intro p hp
    obtain ⟨q, hq, hd, -⟩ := mem_writePlane hp
    exact hd ▸ hs.aligned q hq

theorem Region.Held.write {w : Region} {s : Storage} {m : Manager} (h : w.Held s m)
    (planes : List PlaneStore) : w.Held { s with planes } m :=
  ⟨h.right, h.bottom, h.hsize, h.vsize, h.offsets⟩

namespace Heap

/-- What every run keeps. The list names the manager of each storage. -/
structure Sound (makers : List Manager) (h : Heap) : Prop where
  size : h.storages.size = makers.length
  made : ∀ i s, h.stored? i = some s → ∃ m, makers[i]? = some m ∧ m.Sound ∧ s.MadeBy m
  live : ∀ p picture, h.picture? p = some picture →
    ∃ s m, h.stored? picture.storage = some s ∧ makers[picture.storage]? = some m ∧
      picture.window.Held s m
  counted : ∀ i, h.refs i = h.sharers i

theorem Sound.find {makers : List Manager} {h : Heap} (hs : Sound makers h) {p : Handle}
    {picture : Picture} (hp : h.picture? p = some picture) :
    ∃ s m, h.find p = .ok (picture, s) ∧ makers[picture.storage]? = some m ∧ m.Sound ∧
      s.MadeBy m ∧ picture.window.Held s m := by
  obtain ⟨s, m, hi, hk, hw⟩ := hs.live p picture hp
  obtain ⟨m', hk', hm, hmade⟩ := hs.made _ s hi
  obtain rfl := Option.some.inj (hk.symm.trans hk')
  exact ⟨s, m, find_eq_ok.mpr ⟨hp, hi⟩, hk, hm, hmade, hw⟩

/-- Only handles in `moved` get another picture and only those in `written` other bytes, and
no handle is given up. -/
def Confined (moved written : Handle → Prop) (h t : Heap) : Prop :=
  ∀ q picture storage, h.find q = .ok (picture, storage) →
    ∃ picture' storage', t.find q = .ok (picture', storage') ∧
      (¬ moved q → picture' = picture) ∧ (¬ written q → storage' = storage)

def Works (moved written : Handle → Prop) (h t : Heap) : Prop :=
  ∀ makers, Sound makers h → Sound makers t ∧ Confined moved written h t

theorem Confined.refl (moved written : Handle → Prop) (h : Heap) : Confined moved written h h :=
  fun _ picture storage hq => ⟨picture, storage, hq, fun _ => rfl, fun _ => rfl⟩

theorem Confined.trans {moved written : Handle → Prop} {h t u : Heap}
    (ht : Confined moved written h t) (hu : Confined moved written t u) :
    Confined moved written h u := by
  intro q picture storage hq
  obtain ⟨picture', storage', hq', hm, hw⟩ := ht q picture storage hq
  obtain ⟨picture'', storage'', hq'', hm', hw'⟩ := hu q picture' storage' hq'
  exact ⟨picture'', storage'', hq'', fun h => (hm' h).trans (hm h), fun h => (hw' h).trans (hw h)⟩

theorem Confined.mono {moved written moved' written' : Handle → Prop} {h t : Heap}
    (hc : Confined moved written h t) (hm : ∀ q, moved q → moved' q)
    (hw : ∀ q, written q → written' q) : Confined moved' written' h t := by
  intro q picture storage hq
  obtain ⟨picture', storage', hq', hp, hs⟩ := hc q picture storage hq
  exact ⟨picture', storage', hq', fun h => hp (mt (hm q) h), fun h => hs (mt (hw q) h)⟩

instance (moved written : Handle → Prop) : Op.Tracking (Works moved written) where
  refl h := fun _ hs => ⟨hs, Confined.refl moved written h⟩
  trans ht hu := fun makers hs =>
    have ⟨hs', hc⟩ := ht makers hs
    have ⟨hs'', hc'⟩ := hu makers hs'
    ⟨hs'', hc.trans hc'⟩

theorem Works.mono {moved written moved' written' : Handle → Prop} {h t : Heap}
    (hc : Works moved written h t) (hm : ∀ q, moved q → moved' q)
    (hw : ∀ q, written q → written' q) : Works moved' written' h t :=
  fun makers hs => ⟨(hc makers hs).1, (hc makers hs).2.mono hm hw⟩

abbrev Nobody : Handle → Prop := fun _ => False

/-! ### One picture changes -/

variable {h : Heap} {p : Handle} {picture : Picture} {makers : List Manager}

theorem sharers_setPicture_same {picture' : Picture} (hp : h.picture? p = some picture)
    (hs : picture'.storage = picture.storage) (i : Nat) :
    (h.setPicture p (some picture')).sharers i = h.sharers i := by
  have hc := sharers_setPicture (slot_lt hp) (some picture') i
  simp only [hp, pointsTo_some, hs] at hc
  omega

theorem works_setPicture {picture' : Picture} (hp : h.picture? p = some picture)
    (hs : picture'.storage = picture.storage)
    (hw : ∀ s m, h.stored? picture.storage = some s → picture.window.Held s m →
      picture'.window.Held s m) :
    Works (· = p) Nobody h (h.setPicture p (some picture')) := by
  intro makers hsound
  refine ⟨⟨hsound.size, hsound.made, ?_, fun i => ?_⟩, ?_⟩
  · intro q pic hq
    by_cases hqp : q = p
    · subst hqp
      rw [picture?_setPicture_self h q _ (slot_lt hp)] at hq
      obtain rfl : picture' = pic := Option.some.inj hq
      obtain ⟨s, m, hi, hk, hg⟩ := hsound.live q picture hp
      exact ⟨s, m, hs ▸ hi, hs ▸ hk, hw s m hi hg⟩
    · rw [picture?_setPicture_ne h p q _ hqp] at hq
      exact hsound.live q pic hq
  · rw [refs_setPicture, sharers_setPicture_same hp hs]
    exact hsound.counted i
  · intro q pic s hq
    obtain ⟨hpic, hi⟩ := find_eq_ok.mp hq
    by_cases hqp : q = p
    · subst hqp
      obtain rfl : picture = pic := Option.some.inj (hp.symm.trans hpic)
      refine ⟨picture', s, find_eq_ok.mpr ⟨?_, hs ▸ hi⟩, fun h => absurd rfl h, fun _ => rfl⟩
      exact picture?_setPicture_self h q _ (slot_lt hp)
    · refine ⟨pic, s, find_eq_ok.mpr ⟨?_, hi⟩, fun _ => rfl, fun _ => rfl⟩
      rw [picture?_setPicture_ne h p q _ hqp, hpic]

theorem works_setMapped (hp : h.picture? p = some picture) (count : Nat) :
    Works (· = p) Nobody h (h.setMapped p picture count) :=
  works_setPicture hp rfl fun _ _ _ hw => hw

/-! ### The bytes of one storage change -/

def mapStorage (h : Heap) (i : Nat) (f : Storage → Storage) : Heap :=
  { h with storages := h.storages.modify i fun shared => { shared with storage := f shared.storage } }

@[simp] theorem picture?_mapStorage (i : Nat) (f : Storage → Storage) (q : Handle) :
    (h.mapStorage i f).picture? q = h.picture? q := rfl

@[simp] theorem refs_mapStorage (i : Nat) (f : Storage → Storage) (j : Nat) :
    (h.mapStorage i f).refs j = h.refs j := by
  simp only [refs_eq, mapStorage, Array.getElem?_modify]
  split
  · cases h.storages[j]? <;> rfl
  · rfl

theorem stored?_mapStorage (i : Nat) (f : Storage → Storage) (j : Nat) :
    (h.mapStorage i f).stored? j = if i = j then (h.stored? j).map f else h.stored? j := by
  simp only [stored?, mapStorage, Array.getElem?_modify]
  split
  · cases h.storages[j]? <;> rfl
  · rfl

theorem Sound.sole (hs : Sound makers h) {q : Handle} {pic : Picture} (hp : h.picture? p = some picture)
    (hr : h.refs picture.storage = 1) (hq : h.picture? q = some pic)
    (hsame : pic.storage = picture.storage) : q = p := by
  by_cases hqp : q = p
  · exact hqp
  · have htwo := two_le_sharers hqp hp hq hsame
    rw [← hs.counted, hr] at htwo
    omega

/-- If only one handle has a storage, then nobody else sees its bytes change. -/
theorem works_mapStorage {f : Storage → Storage} (hp : h.picture? p = some picture)
    (hr : h.refs picture.storage = 1) (hm : ∀ s m, s.MadeBy m → (f s).MadeBy m)
    (hw : ∀ s m (w : Region), w.Held s m → w.Held (f s) m) :
    Works Nobody (· = p) h (h.mapStorage picture.storage f) := by
  intro makers hsound
  refine ⟨⟨?_, ?_, ?_, fun i => ?_⟩, ?_⟩
  · exact Array.size_modify.trans hsound.size
  · intro i s hi
    rw [stored?_mapStorage] at hi
    split at hi
    · obtain ⟨s', hs', rfl⟩ := Option.map_eq_some_iff.mp hi
      obtain ⟨m, hk, hms, hmade⟩ := hsound.made i s' hs'
      exact ⟨m, hk, hms, hm s' m hmade⟩
    · exact hsound.made i s hi
  · intro q pic hq
    obtain ⟨s, m, hi, hk, hg⟩ := hsound.live q pic hq
    rw [stored?_mapStorage, hi]
    split
    · exact ⟨f s, m, rfl, hk, hw s m _ hg⟩
    · exact ⟨s, m, rfl, hk, hg⟩
  · rw [refs_mapStorage]
    exact hsound.counted i
  · intro q pic s hq
    obtain ⟨hpic, hi⟩ := find_eq_ok.mp hq
    by_cases hsame : pic.storage = picture.storage
    · have hqp := hsound.sole hp hr hpic hsame
      refine ⟨pic, f s, find_eq_ok.mpr ⟨hpic, ?_⟩, fun _ => rfl, fun h => absurd hqp h⟩
      rw [stored?_mapStorage, if_pos hsame.symm, hi]
      rfl
    · refine ⟨pic, s, find_eq_ok.mpr ⟨hpic, ?_⟩, fun _ => rfl, fun _ => rfl⟩
      rw [stored?_mapStorage, if_neg (Ne.symm hsame), hi]

end Heap

end Planar
