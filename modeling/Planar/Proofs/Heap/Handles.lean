import Planar.Proofs.Heap.Sound
set_option autoImplicit false

/-!
Handles come and go: a new storage, another handle of one, a handle given up and a handle that
takes over the picture of another. The counts follow.
-/

namespace Planar.Heap

variable {h : Heap} {makers : List Manager}

theorem stored?_lt {i : Nat} {s : Storage} (hi : h.stored? i = some s) : i < h.storages.size := by
  by_cases hlt : i < h.storages.size
  · exact hlt
  · rw [stored?, Array.getElem?_eq_none (Nat.le_of_not_lt hlt)] at hi
    cases hi

theorem refs_of_size_le {i : Nat} (hi : h.storages.size ≤ i) : h.refs i = 0 := by
  rw [refs_eq, Array.getElem?_eq_none hi]
  rfl

/-! ### A new storage -/

section

variable (s : Storage) (w : Region)

theorem picture?_allocate (q : Handle) : (h.allocate s w).2.picture? q =
    if q.slot = h.pictures.size then some ⟨h.storages.size, w, 0⟩ else h.picture? q :=
  picture?_addPicture ..

theorem stored?_allocate (i : Nat) :
    (h.allocate s w).2.stored? i = if i = h.storages.size then some s else h.stored? i := by
  simp only [allocate, addPicture, stored?, Array.getElem?_push]
  split <;> rfl

theorem refs_allocate (i : Nat) :
    (h.allocate s w).2.refs i = if i = h.storages.size then 1 else h.refs i := by
  simp only [refs_eq, allocate, addPicture, Array.getElem?_push]
  split <;> rfl

theorem sharers_allocate (i : Nat) :
    (h.allocate s w).2.sharers i = h.sharers i + if h.storages.size = i then 1 else 0 :=
  sharers_addPicture ..

theorem find_allocate_self :
    (h.allocate s w).2.find ⟨h.pictures.size⟩ = .ok (⟨h.storages.size, w, 0⟩, s) := by
  rw [find_eq_ok, picture?_allocate, stored?_allocate]
  simp

theorem find_allocate {q : Handle} {picture : Picture} {t : Storage}
    (hq : h.find q = .ok (picture, t)) : (h.allocate s w).2.find q = .ok (picture, t) := by
  obtain ⟨hp, hi⟩ := find_eq_ok.mp hq
  have hslot := Nat.ne_of_lt (slot_lt hp)
  have hstore := Nat.ne_of_lt (stored?_lt hi)
  rw [find_eq_ok, picture?_allocate, stored?_allocate, if_neg hslot, if_neg hstore]
  exact ⟨hp, hi⟩

end

theorem Sound.allocate (hs : Sound makers h) {m : Manager} (hm : m.Sound) {s : Storage}
    (hmade : s.MadeBy m) {w : Region} (hw : w.Held s m) :
    Sound (makers ++ [m]) (h.allocate s w).2 where
  size := by simp [Heap.allocate, addPicture, hs.size]
  made := by
    intro i t hi
    rw [stored?_allocate] at hi
    split at hi
    · rename_i heq
      obtain rfl : s = t := Option.some.inj hi
      exact ⟨m, by simp [heq, hs.size], hm, hmade⟩
    · obtain ⟨m', hk, hm'⟩ := hs.made i t hi
      exact ⟨m', List.getElem?_append_left (hs.size ▸ stored?_lt hi) ▸ hk, hm'⟩
  live := by
    intro q picture hq
    rw [picture?_allocate] at hq
    split at hq
    · obtain rfl := Option.some.inj hq
      exact ⟨s, m, by simp [stored?_allocate], by simp [hs.size], hw⟩
    · obtain ⟨t, k, hi, hk, hg⟩ := hs.live q picture hq
      have hlt := stored?_lt hi
      refine ⟨t, k, by rw [stored?_allocate, if_neg (Nat.ne_of_lt hlt), hi], ?_, hg⟩
      exact List.getElem?_append_left (hs.size ▸ hlt) ▸ hk
  counted := by
    intro i
    rw [refs_allocate, sharers_allocate, ← hs.counted i]
    by_cases hi : i = h.storages.size
    · simp [hi, refs_of_size_le (Nat.le_refl h.storages.size)]
    · simp [hi, Ne.symm hi]

/-! ### One more handle -/

theorem works_share (p : Handle) : Works Nobody Nobody h (share p h).2 := by
  unfold share
  cases hp : h.picture? p with
  | none => exact Op.Tracking.refl h
  | some picture =>
    intro makers hs
    obtain ⟨s, m, hi, hk, hw⟩ := hs.live p picture hp
    have hlt := stored?_lt hi
    refine ⟨⟨?_, fun i t ht => ?_, fun q pic hq => ?_, fun i => ?_⟩, fun q pic t hq => ?_⟩
    · simp [addPicture, setRefs, hs.size]
    · exact hs.made i t (by simpa using ht)
    · rw [picture?_addPicture] at hq
      split at hq
      · obtain rfl := Option.some.inj hq
        exact ⟨s, m, by simpa using hi, hk, hw⟩
      · simpa using hs.live q pic (by simpa using hq)
    · rw [refs_addPicture, refs_setRefs, sharers_addPicture, sharers_setRefs, ← hs.counted i]
      by_cases hpi : picture.storage = i
      · subst hpi
        simp [hlt]
      · simp [hpi]
    · obtain ⟨hpic, ht⟩ := find_eq_ok.mp hq
      refine ⟨pic, t, find_eq_ok.mpr ⟨?_, by simpa using ht⟩, fun _ => rfl, fun _ => rfl⟩
      have hslot := Nat.ne_of_lt (slot_lt hpic)
      rw [picture?_addPicture, if_neg (by simpa using hslot)]
      simpa using hpic

/-! ### One handle less -/

theorem drop_of_none {p : Handle} (hp : h.picture? p = none) : h.drop p = h := by
  unfold drop
  rw [hp]

theorem drop_of_some {p : Handle} {picture : Picture} (hp : h.picture? p = some picture) :
    h.drop p = (h.setRefs picture.storage (h.refs picture.storage - 1)).setPicture p none := by
  unfold drop
  rw [hp]

theorem picture?_drop_ne {p q : Handle} (hq : q ≠ p) : (h.drop p).picture? q = h.picture? q := by
  unfold drop
  split
  · rfl
  · rw [picture?_setPicture_ne _ _ _ _ hq, picture?_setRefs]

theorem picture?_drop_self (p : Handle) : (h.drop p).picture? p = none := by
  unfold drop
  split
  · assumption
  · rename_i picture hp
    exact picture?_setPicture_self _ _ _ (slot_lt (h := h.setRefs _ _) hp)

@[simp] theorem stored?_drop (p : Handle) (i : Nat) : (h.drop p).stored? i = h.stored? i := by
  unfold drop
  split
  · rfl
  · simp

theorem find_drop {p q : Handle} (hq : q ≠ p) : (h.drop p).find q = h.find q :=
  find_congr (picture?_drop_ne hq) fun _ _ => stored?_drop p _

theorem Sound.drop (hs : Sound makers h) (p : Handle) : Sound makers (h.drop p) where
  size := by
    unfold Heap.drop
    split <;> simp [setRefs, hs.size]
  made i t hi := hs.made i t (by simpa using hi)
  live q pic hq := by
    by_cases hqp : q = p
    · rw [hqp, picture?_drop_self] at hq
      cases hq
    · simpa using hs.live q pic (picture?_drop_ne hqp ▸ hq)
  counted i := by
    cases hp : h.picture? p with
    | none => rw [drop_of_none hp, hs.counted i]
    | some picture =>
      have hslot : p.slot < (h.setRefs picture.storage (h.refs picture.storage - 1)).pictures.size :=
        slot_lt hp
      have hc := sharers_setPicture hslot none i
      obtain ⟨s, m, hi, -⟩ := hs.live p picture hp
      have hlt := stored?_lt hi
      have hcount := hs.counted i
      rw [picture?_setRefs, hp, pointsTo_some, sharers_setRefs] at hc
      rw [drop_of_some hp, refs_setPicture, refs_setRefs]
      by_cases hpi : picture.storage = i
      · subst hpi
        simp at hc
        simp [hlt]
        omega
      · simpa [hpi, hcount] using hc.symm

/-! ### One handle takes over from another -/

theorem picture?_succeed {p q : Handle} {old picture : Picture} (hne : q ≠ p)
    (hp : h.picture? p = some old) (hq : h.picture? q = some picture) (r : Handle) :
    (h.succeed p q).picture? r =
      if r = p then some picture else if r = q then none else h.picture? r := by
  have hslot : p.slot < ((h.drop p).setPicture q none).pictures.size := by
    have := slot_lt hp
    rw [drop_of_some hp]
    simpa [setPicture] using this
  unfold succeed
  rw [hq]
  by_cases hrp : r = p
  · subst hrp
    rw [if_pos rfl, picture?_setPicture_self _ _ _ hslot]
  · rw [if_neg hrp, picture?_setPicture_ne _ _ _ _ hrp]
    by_cases hrq : r = q
    · subst hrq
      rw [if_pos rfl, picture?_setPicture_self _ _ _ (slot_lt ((picture?_drop_ne hne).trans hq))]
    · rw [if_neg hrq, picture?_setPicture_ne _ _ _ _ hrq, picture?_drop_ne hrp]

@[simp] theorem stored?_succeed (p q : Handle) (i : Nat) :
    (h.succeed p q).stored? i = h.stored? i := by
  unfold succeed
  split <;> simp

theorem Sound.succeed (hs : Sound makers h) {p q : Handle} {old picture : Picture} (hne : q ≠ p)
    (hp : h.picture? p = some old) (hq : h.picture? q = some picture) :
    Sound makers (h.succeed p q) := by
  have hd := hs.drop p
  have hq' : (h.drop p).picture? q = some picture := (picture?_drop_ne hne).trans hq
  refine ⟨?_, fun i t hi => ?_, fun r pic hr => ?_, fun i => ?_⟩
  · unfold Heap.succeed
    rw [hq]
    exact hd.size
  · exact hs.made i t (by simpa using hi)
  · rw [picture?_succeed hne hp hq] at hr
    simp only [stored?_succeed]
    split at hr
    · exact hs.live q pic (hq.trans hr)
    · split at hr
      · cases hr
      · exact hs.live r pic hr
  · -- the picture leaves `q` and comes to `p`, which has none at that time
    have hslot : p.slot < ((h.drop p).setPicture q none).pictures.size := by
      have := slot_lt hp
      rw [drop_of_some hp]
      simpa [setPicture] using this
    have hleave := sharers_setPicture (slot_lt hq') none i
    have hcome := sharers_setPicture hslot (some picture) i
    rw [picture?_setPicture_ne _ _ _ _ hne.symm, picture?_drop_self] at hcome
    rw [hq'] at hleave
    have hcount := hd.counted i
    unfold Heap.succeed
    rw [hq]
    simp only [refs_setPicture]
    simp only [pointsTo_none, Bool.false_eq_true, if_false] at hleave hcome
    omega

theorem find_succeed {p q r : Handle} {old picture : Picture} (hne : q ≠ p)
    (hp : h.picture? p = some old) (hq : h.picture? q = some picture) (hr : r ≠ p) (hrq : r ≠ q) :
    (h.succeed p q).find r = h.find r :=
  find_congr (by rw [picture?_succeed hne hp hq, if_neg hr, if_neg hrq])
    fun _ _ => stored?_succeed p q _

theorem find_succeed_self {p q : Handle} {old picture : Picture} {s : Storage} (hne : q ≠ p)
    (hp : h.picture? p = some old) (hq : h.find q = .ok (picture, s)) :
    (h.succeed p q).find p = .ok (picture, s) := by
  obtain ⟨hpic, hi⟩ := find_eq_ok.mp hq
  rw [find_eq_ok, picture?_succeed hne hp hpic, if_pos rfl, stored?_succeed]
  exact ⟨rfl, hi⟩

end Planar.Heap
