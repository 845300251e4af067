import Planar.Heap
set_option autoImplicit false

/-!
What the primitive changes of a heap do to its pictures and storages, and the number of
handles that a storage really has.
-/

namespace Planar.Heap

theorem slot_ne {p q : Handle} (h : p ≠ q) : p.slot ≠ q.slot := by
  cases p; cases q; simpa using h

theorem slot_lt {h : Heap} {p : Handle} {picture : Picture} (hp : h.picture? p = some picture) :
    p.slot < h.pictures.size := by
  unfold picture? at hp
  by_cases hs : p.slot < h.pictures.size
  · exact hs
  · rw [Array.getElem?_eq_none (Nat.le_of_not_lt hs)] at hp
    cases hp

theorem getElem?_of_picture? {h : Heap} {p : Handle} {picture : Picture}
    (hp : h.picture? p = some picture) : h.pictures[p.slot]? = some (some picture) := by
  have hs := slot_lt hp
  unfold picture? at hp
  rw [Array.getElem?_eq_getElem hs] at hp ⊢
  simpa using hp

def stored? (h : Heap) (i : Nat) : Option Storage := (h.storages[i]?).map Shared.storage

theorem storage?_eq {h : Heap} {p : Handle} {picture : Picture}
    (hp : h.picture? p = some picture) : h.storage? p = h.stored? picture.storage := by
  unfold storage? stored?
  rw [hp]
  cases hs : h.storages[picture.storage]? <;> simp [hs]

theorem find_eq_ok {h : Heap} {p : Handle} {picture : Picture} {storage : Storage} :
    h.find p = .ok (picture, storage) ↔
      h.picture? p = some picture ∧ h.stored? picture.storage = some storage := by
  unfold find
  constructor
  · intro hf
    split at hf
    · rename_i a b ha hb
      cases hf
      exact ⟨ha, storage?_eq ha ▸ hb⟩
    · cases hf
  · intro hgiven
    obtain ⟨hp, hs⟩ := hgiven
    rw [storage?_eq hp, hs, hp]

theorem find_congr {h t : Heap} {p : Handle} (hp : t.picture? p = h.picture? p)
    (hs : ∀ picture, h.picture? p = some picture → t.stored? picture.storage = h.stored? picture.storage) :
    t.find p = h.find p := by
  cases hq : h.picture? p with
  | none => simp [find, hp, hq]
  | some picture =>
    unfold find
    rw [storage?_eq hq, storage?_eq (hp.trans hq), hp, hs picture hq]

theorem refs_eq {h : Heap} {i : Nat} : h.refs i = ((h.storages[i]?).map Shared.refs).getD 0 := by
  unfold refs
  cases h.storages[i]? <;> rfl

theorem refCount_eq {h : Heap} {p : Handle} {picture : Picture}
    (hp : h.picture? p = some picture) : h.refCount p = h.refs picture.storage := by
  unfold refCount
  rw [hp]

theorem exists_picture_of_refCount {h : Heap} {p : Handle} {n : Nat} (hn : h.refCount p = n + 1) :
    ∃ picture, h.picture? p = some picture ∧ h.refs picture.storage = n + 1 := by
  cases hp : h.picture? p with
  | none =>
    unfold refCount at hn
    rw [hp] at hn
    cases hn
  | some picture => exact ⟨picture, rfl, (refCount_eq hp).symm.trans hn⟩

/-! ### Pictures -/

section

variable (h : Heap) (p q : Handle) (o : Option Picture) (i : Nat)

@[simp] theorem storages_setPicture : (h.setPicture p o).storages = h.storages := rfl

@[simp] theorem stored?_setPicture : (h.setPicture p o).stored? i = h.stored? i := rfl

@[simp] theorem refs_setPicture : (h.setPicture p o).refs i = h.refs i := rfl

theorem picture?_setPicture_ne (hq : q ≠ p) : (h.setPicture p o).picture? q = h.picture? q := by
  unfold picture? setPicture
  rw [Array.getElem?_setIfInBounds_ne (slot_ne hq.symm)]

theorem picture?_setPicture_self (hp : p.slot < h.pictures.size) :
    (h.setPicture p o).picture? p = o := by
  simp [picture?, setPicture, Array.getElem?_setIfInBounds_self_of_lt hp]

theorem picture?_addPicture (picture : Picture) :
    (h.addPicture picture).2.picture? q =
      if q.slot = h.pictures.size then some picture else h.picture? q := by
  simp only [picture?, addPicture, Array.getElem?_push]
  split <;> rfl

@[simp] theorem stored?_addPicture (picture : Picture) :
    (h.addPicture picture).2.stored? i = h.stored? i := rfl

@[simp] theorem refs_addPicture (picture : Picture) :
    (h.addPicture picture).2.refs i = h.refs i := rfl

@[simp] theorem picture?_setRefs (count : Nat) : (h.setRefs i count).picture? q = h.picture? q := rfl

@[simp] theorem pictures_setRefs (count : Nat) : (h.setRefs i count).pictures = h.pictures := rfl

@[simp] theorem stored?_setRefs (j count : Nat) : (h.setRefs i count).stored? j = h.stored? j := by
  simp only [stored?, setRefs, Array.getElem?_modify]
  split
  · cases h.storages[j]? <;> rfl
  · rfl

theorem refs_setRefs (j count : Nat) :
    (h.setRefs i count).refs j = if i = j ∧ j < h.storages.size then count else h.refs j := by
  rw [refs_eq, refs_eq]
  simp only [setRefs, Array.getElem?_modify]
  by_cases hj : j < h.storages.size
  · rw [Array.getElem?_eq_getElem hj]
    split <;> simp_all
  · simp [hj]

end

theorem ne_of_live {h : Heap} {q : Handle} {picture : Picture} (hq : h.picture? q = some picture) :
    q ≠ ⟨h.pictures.size⟩ := by
  intro heq
  subst heq
  exact Nat.lt_irrefl _ (slot_lt hq)

/-! ### Counts -/

def pointsTo (i : Nat) (o : Option Picture) : Bool := o.map (·.storage) == some i

def sharers (h : Heap) (i : Nat) : Nat := h.pictures.countP (pointsTo i)

@[simp] theorem sharers_setRefs (h : Heap) (i j count : Nat) :
    (h.setRefs i count).sharers j = h.sharers j := rfl

theorem sharers_addPicture (h : Heap) (picture : Picture) (i : Nat) :
    (h.addPicture picture).2.sharers i = h.sharers i + if picture.storage = i then 1 else 0 := by
  simp [sharers, addPicture, Array.countP_push, pointsTo]

theorem sharers_pos {h : Heap} {p : Handle} {picture : Picture}
    (hp : h.picture? p = some picture) : 0 < h.sharers picture.storage := by
  have hm := Array.mem_of_getElem? (getElem?_of_picture? hp)
  exact Array.countP_pos_iff.mpr ⟨_, hm, by simp [pointsTo]⟩

theorem pointsTo_some (i : Nat) (picture : Picture) :
    pointsTo i (some picture) = decide (picture.storage = i) := by
  simp [pointsTo, Bool.beq_eq_decide_eq]

@[simp] theorem pointsTo_none (i : Nat) : pointsTo i none = false := rfl

theorem sharers_setPicture {h : Heap} {p : Handle} (hs : p.slot < h.pictures.size)
    (o : Option Picture) (i : Nat) :
    (h.setPicture p o).sharers i + (if pointsTo i (h.picture? p) then 1 else 0) =
      h.sharers i + (if pointsTo i o then 1 else 0) := by
  have hlist : p.slot < h.pictures.toList.length := by simpa using hs
  have hg : h.pictures.toList[p.slot] = h.picture? p := by
    simp [picture?, Array.getElem?_eq_getElem hs]
  have hpos : pointsTo i (h.picture? p) → 0 < h.pictures.toList.countP (pointsTo i) := fun hi =>
    List.countP_pos_iff.mpr ⟨_, List.getElem_mem _, hg ▸ hi⟩
  have hset := List.countP_set (p := pointsTo i) (a := o) (l := h.pictures.toList)
    (i := p.slot) hlist
  rw [hg] at hset
  have h₁ : (h.setPicture p o).sharers i = (h.pictures.toList.set p.slot o).countP (pointsTo i) := by
    simp [sharers, setPicture, ← Array.countP_toList]
  have h₂ : h.sharers i = h.pictures.toList.countP (pointsTo i) := by
    simp [sharers, ← Array.countP_toList]
  rw [h₁, h₂, hset]
  by_cases hi : pointsTo i (h.picture? p)
  · have := hpos hi
    simp only [hi, if_true]
    omega
  · simp [hi]

theorem two_le_sharers {h : Heap} {p q : Handle} {a b : Picture} (hne : q ≠ p)
    (hp : h.picture? p = some a) (hq : h.picture? q = some b) (hs : b.storage = a.storage) :
    2 ≤ h.sharers a.storage := by
  have hc := sharers_setPicture (slot_lt hp) none a.storage
  have hq' : (h.setPicture p none).picture? q = some b := by
    rw [picture?_setPicture_ne h p q none hne, hq]
  have hpos := sharers_pos hq'
  rw [hs] at hpos
  simp [hp, pointsTo_some] at hc
  omega

end Planar.Heap
