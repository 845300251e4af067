import Planar.Proofs.Heap.Mapped
set_option autoImplicit false

/-!
New sizes are given in full or not at all. After a fault every handle knows what it knew, a resize in
place only moves one window, and a replaced picture leaves its storage to those that shared it.
-/

namespace Planar.Heap

variable {makers : List Manager} {h t u : Heap} {p q : Handle} {picture old : Picture} {s : Storage}
  {m k : Manager} {raw : RawResize} {request : ResizeRequest} {hsize vsize : Nat}

/-! ### Counts -/

theorem refs_drop (hp : h.picture? p = some picture) (i : Nat) :
    (h.drop p).refs i = h.refs i - if picture.storage = i then 1 else 0 := by
  rw [drop_of_some hp, refs_setPicture, refs_setRefs]
  by_cases hi : i < h.storages.size
  · by_cases hs : picture.storage = i
    · subst hs
      simp [hi]
    · simp [hs]
  · simp [hi, refs_of_size_le (Nat.le_of_not_lt hi)]

theorem refs_succeed (hp : h.picture? p = some old) (hq : h.picture? q = some picture) (i : Nat) :
    (h.succeed p q).refs i = h.refs i - if old.storage = i then 1 else 0 := by
  unfold succeed
  rw [hq]
  simp only [refs_setPicture]
  exact refs_drop hp i

theorem refCount_congr (hp : t.picture? q = h.picture? q) (hr : ∀ i, t.refs i = h.refs i) :
    t.refCount q = h.refCount q := by
  unfold refCount
  rw [hp]
  cases h.picture? q with
  | none => rfl
  | some picture => exact hr _

theorem picture?_next (h : Heap) : h.picture? h.next = none := by
  simp [picture?, next]

theorem Sound.refs_pos (hs : Sound makers h) (hp : h.picture? p = some picture) :
    0 < h.refs picture.storage := by
  rw [hs.counted]
  exact sharers_pos hp

/-! ### Faults -/

def Spares (h t : Heap) : Prop :=
  ∀ q, t.find q = h.find q ∧ t.refCount q = h.refCount q

section

variable (hkept : Kept (h.withBlank k hsize vsize) u)

include hkept

theorem picture?_next_of_kept : u.picture? h.next = some (h.fresh k hsize vsize) := by
  rw [hkept.picture?, picture?_withBlank, if_pos rfl]

theorem picture?_of_kept (hq : q ≠ h.next) : u.picture? q = h.picture? q := by
  rw [hkept.picture?, picture?_withBlank, if_neg hq]

theorem picture?_drop_next (q : Handle) : (u.drop h.next).picture? q = h.picture? q := by
  by_cases hq : q = h.next
  · rw [hq, picture?_drop_self, picture?_next]
  · rw [picture?_drop_ne hq, picture?_of_kept hkept hq]

theorem refs_drop_next (i : Nat) : (u.drop h.next).refs i = h.refs i := by
  rw [refs_drop (picture?_next_of_kept hkept), hkept.refs, refs_withBlank]
  by_cases hi : i = h.storages.size
  · subst hi
    simp [fresh, refs_of_size_le]
  · simp [fresh, hi, Ne.symm hi]

end

theorem find_of_copy {result : Except Stop Handle} (hs : Sound makers h) (hk : k.Sound)
    (hc : copy k p raw h = (result, t)) (hp : t.picture? q = h.picture? q) : t.find q = h.find q := by
  refine find_congr hp fun picture hq => ?_
  obtain ⟨s, -, hf, -⟩ := hs.find hq
  have hstep := step_copy hs hk p raw
  rw [hc] at hstep
  obtain ⟨picture', hf'⟩ := hstep.bytes rfl q picture s hf
  obtain ⟨hq', hi'⟩ := find_eq_ok.mp hf'
  cases (hp.trans hq).symm.trans hq'
  exact hi'.trans (find_eq_ok.mp hf).2.symm

theorem spares_of_copy (hs : Sound makers h) (hh : Holds h p picture s m) (hk : k.Sound) {why : Fault}
    (hc : copy k p raw h = (.error (.fault why), t)) : Spares h t := by
  obtain ⟨why', hrun⟩ | ⟨request, u, -, -, hcopying, ⟨why', hrun⟩ | hrun⟩ :=
    copy_keeps hh hk (Op.not_crashes_of_fault hc)
  · cases hrun.symm.trans hc
    exact fun q => ⟨rfl, rfl⟩
  · cases hrun.symm.trans hc
    intro q
    have hpicture := picture?_drop_next hcopying.kept q
    exact ⟨find_of_copy hs hk hc hpicture,
      refCount_congr hpicture (refs_drop_next hcopying.kept)⟩
  · cases hrun.symm.trans hc

theorem spares_of_replace (hs : Sound makers h) (hh : Holds h p picture s m) (hk : k.Sound) {why : Fault}
    (hr : replace k p raw h = (.error (.fault why), t)) : Spares h t := by
  cases hc : copy k p raw h with
  | mk result u =>
    cases result with
    | ok q => cases (replace_of_ok hc).symm.trans hr
    | error stop =>
      cases (replace_of_error hc).symm.trans hr
      exact spares_of_copy hs hh hk hc

theorem spares_of_resizeOrReplace (hs : Sound makers h) (hh : Holds h p picture s m) (hk : k.Sound)
    {why : Fault} (hr : resizeOrReplace k p raw h = (.error (.fault why), t)) : Spares h t := by
  cases hresize : resize p raw h with
  | mk result u =>
    cases result with
    | ok _ => cases (resizeOrReplace_of_ok hresize).symm.trans hr
    | error stop =>
      cases stop with
      | crash => exact absurd (congrArg Prod.fst hresize) (resize_not_crashes hh.find raw)
      | fault why' =>
        rw [resizeOrReplace_of_fault hresize] at hr
        split at hr
        · cases hr
          exact fun q => ⟨rfl, rfl⟩
        · cases hreplace : replace k p raw h with
          | mk result v =>
            cases result with
            | ok _ => cases (Op.bind_of_ok hreplace).symm.trans hr
            | error stop =>
              cases (Op.bind_of_error hreplace).symm.trans hr
              exact spares_of_replace hs hh hk hreplace

/-! ### In place -/

/-- The handle has another window on its storage, and nothing else is new. -/
structure Shifted (h t : Heap) (p : Handle) (picture : Picture) (s : Storage) (w : Region) : Prop where
  self : t.find p = .ok ({ picture with window := w }, s)
  others : ∀ q, q ≠ p → t.find q = h.find q
  counts : ∀ q, t.refCount q = h.refCount q

theorem shifted_of_setPicture (hf : h.find p = .ok (picture, s)) (w : Region) :
    Shifted h (h.setPicture p (some { picture with window := w })) p picture s w := by
  obtain ⟨hp, hi⟩ := find_eq_ok.mp hf
  have hself := picture?_setPicture_self h p (some { picture with window := w }) (slot_lt hp)
  refine ⟨find_eq_ok.mpr ⟨hself, hi⟩, fun q hq => ?_, fun q => ?_⟩
  · exact find_congr (picture?_setPicture_ne h p q _ hq) fun _ _ => rfl
  · by_cases hq : q = p
    · subst hq
      rw [refCount_eq hself, refCount_eq hp]
      rfl
    · exact refCount_congr (picture?_setPicture_ne h p q _ hq) fun _ => rfl

/-! ### By a copy -/

/-- The handle has a storage of its own. Those that shared the old one with it are one less. -/
structure TookOver (h t : Heap) (p : Handle) (old : Picture) (k : Manager) (request : ResizeRequest) :
    Prop where
  self : ∃ s, t.find p = .ok (h.fresh k request.newHsize request.newVsize, s) ∧ s.MadeBy k
  sole : t.refCount p = 1
  alone : ∀ q picture, q ≠ p → t.picture? q = some picture → picture.storage ≠ h.storages.size
  others : ∀ q, q ≠ p → t.find q = h.find q
  counts : ∀ q picture, q ≠ p → h.picture? q = some picture →
    t.refCount q + (if picture.storage = old.storage then 1 else 0) = h.refCount q

theorem tookOver_of_replace (hs : Sound makers h) (hh : Holds h p old s m) (hk : k.Sound)
    (hr : replace k p raw h = (.ok (), t)) : ∃ request, normalizeResize p raw h = .ok request ∧
      TookOver h t p old k request ∧
        t.size p = .ok ⟨request.newHsize, request.newVsize, request.size.macropixel⟩ := by
  obtain ⟨u, hc, rfl⟩ := replace_eq_ok.mp hr
  obtain ⟨request, hn, hg, -, hq, hfill⟩ := request_of_copy hh hk hc
  have hcopying := fillCopy_keeps (apart_fresh hh hk hg) hq.macropixel (Op.not_crashes_of_ok hfill)
  rw [hfill] at hcopying
  obtain ⟨hkept, s', ha⟩ := hcopying
  have hp := ha.source.picture?
  have hnext := ha.destination.picture?
  -- after the takeover everybody but the handle has what the heap before had
  have hpicture : ∀ q, q ≠ p → (u.succeed p h.next).picture? q = h.picture? q := by
    intro q hqp
    rw [picture?_succeed ha.handles hp hnext, if_neg hqp]
    by_cases hqn : q = h.next
    · rw [if_pos hqn, hqn, picture?_next]
    · rw [if_neg hqn, picture?_of_kept hkept hqn]
  have hself := find_succeed_self ha.handles hp ha.destination.find
  have hrefs := refs_succeed hp hnext
  refine ⟨request, hn, ⟨⟨s', hself, ha.destination.made⟩, ?_, ?_, ?_, ?_⟩, ?_⟩
  · rw [refCount_eq (find_eq_ok.mp hself).1, hrefs, ha.sole, if_neg (Ne.symm ha.storages)]
  · intro q picture hqp hq'
    rw [hpicture q hqp] at hq'
    obtain ⟨_, -, hi, -⟩ := hs.live q picture hq'
    exact Nat.ne_of_lt (stored?_lt hi)
  · intro q hqp
    by_cases hqn : q = h.next
    · refine find_congr (hpicture q hqp) fun picture hq' => ?_
      rw [hqn, picture?_next] at hq'
      cases hq'
    · rw [find_succeed ha.handles hp hnext hqp hqn]
      exact find_of_copy hs hk hc (picture?_of_kept hkept hqn)
  · intro q picture hqp hq'
    have hpos := hs.refs_pos hq'
    obtain ⟨_, -, hi, -⟩ := hs.live q picture hq'
    rw [refCount_eq ((hpicture q hqp).trans hq'), refCount_eq hq', hrefs, hkept.refs, refs_withBlank,
      if_neg (Nat.ne_of_lt (stored?_lt hi))]
    by_cases hshared : picture.storage = old.storage
    · rw [if_pos hshared, if_pos hshared.symm]
      omega
    · rw [if_neg hshared, if_neg (Ne.symm hshared)]
      rfl
  · rw [size_of_find hself]
    simp [Picture.visible, fresh, Manager.window, ha.destination.made.macropixel, hq.macropixel',
      hq.macropixel]

/-- A fault in any of the checks, the allocation or a plane leaves all handles with what they had. A
picture is resized in place exactly where a resize alone would do it, with no byte and no count changed.
Otherwise its handle alone has a new storage, and those of the old one are one less. -/
theorem all_or_nothing (hr : Reachable makers h) (hk : k.Built) (hf : h.find p = .ok (picture, s)) :
    (∀ why t, replace k p raw h = (.error (.fault why), t) ∨
      resizeOrReplace k p raw h = (.error (.fault why), t) → Spares h t) ∧
    (∀ t, resizeOrReplace k p raw h = (.ok .inPlace, t) ↔ resize p raw h = (.ok (), t)) ∧
    (∀ t, resizeOrReplace k p raw h = (.ok .inPlace, t) → ∃ request w,
      normalizeResize p raw h = .ok request ∧ Shifted h t p picture s w ∧
        t.size p = .ok ⟨request.newHsize, request.newVsize, request.size.macropixel⟩) ∧
    ∀ t, replace k p raw h = (.ok (), t) ∨ resizeOrReplace k p raw h = (.ok .copied, t) → ∃ request,
      normalizeResize p raw h = .ok request ∧ TookOver h t p picture k request ∧
        t.size p = .ok ⟨request.newHsize, request.newVsize, request.size.macropixel⟩ := by
  obtain ⟨m, hh⟩ := hr.sound.holds_of_find hf
  have hinPlace : ∀ t, resizeOrReplace k p raw h = (.ok .inPlace, t) ↔ resize p raw h = (.ok (), t) := by
    intro t
    rw [resizeOrReplace_eq_ok]
    simp
  refine ⟨?_, hinPlace, ?_, ?_⟩
  · rintro why t (hfail | hfail)
    · exact spares_of_replace hr.sound hh hk.sound hfail
    · exact spares_of_resizeOrReplace hr.sound hh hk.sound hfail
  · intro t hdone
    obtain ⟨request, w, hn, hw, rfl⟩ := movesTo_of_resize hh ((hinPlace t).mp hdone)
    have hshifted := shifted_of_setPicture hh.find w
    refine ⟨request, w, hn, hshifted, ?_⟩
    rw [size_of_find hshifted.self, (resolvesTo_of_normalize hh hn).before]
    simp [Picture.visible, hw.hsize, hw.vsize, hh.made.macropixel]
  · rintro t (hdone | hdone)
    · exact tookOver_of_replace hr.sound hh hk.sound hdone
    · obtain ⟨hpath, -⟩ | ⟨-, -, hreplace⟩ := resizeOrReplace_eq_ok.mp hdone
      · cases hpath
      · exact tookOver_of_replace hr.sound hh hk.sound hreplace

theorem sharedGray_left :
    let left := (replace grayManager (⟨0⟩ : Handle) ⟨0, 0, 1, 1⟩ sharedGray).2
    left.refCount ⟨0⟩ = 1 ∧ left.refCount ⟨1⟩ = 1 ∧ left.find ⟨1⟩ = sharedGray.find ⟨1⟩ := by
  have hbuilt : grayManager.Built := legal_of_gray (a := .alloc grayManager 2 1) (.inl rfl) _ rfl
  have hf : sharedGray.find ⟨0⟩ = .ok (⟨0, ⟨1, 0, 2, 1⟩, 0⟩, grayManager.blankStorage 2 1) :=
    by decide +kernel
  have hrun : replace grayManager (⟨0⟩ : Handle) ⟨0, 0, 1, 1⟩ sharedGray =
      (.ok (), (replace grayManager (⟨0⟩ : Handle) ⟨0, 0, 1, 1⟩ sharedGray).2) :=
    Prod.ext (by decide +kernel) rfl
  obtain ⟨-, -, -, hleft⟩ := all_or_nothing reachable_sharedGray hbuilt hf
  obtain ⟨request, -, htook, -⟩ := hleft _ (.inl hrun)
  have hother : sharedGray.picture? ⟨1⟩ = some ⟨0, ⟨1, 0, 2, 1⟩, 0⟩ := by decide +kernel
  have hcount := htook.counts ⟨1⟩ _ (by decide) hother
  have hbefore : sharedGray.refCount ⟨1⟩ = 2 := by decide +kernel
  rw [hbefore, if_pos rfl] at hcount
  exact ⟨htook.sole, Nat.succ.inj hcount, htook.others ⟨1⟩ (by decide)⟩

end Planar.Heap
