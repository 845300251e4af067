import Planar.Proofs.Heap.Clearing
import Planar.Proofs.Heap.Replacing
import Planar.Proofs.Heap.Run
set_option autoImplicit false

/-!
Which calls crash. The normalizers accept regions of a plane that have rows but no bytes, and a view of
such a region holds nothing behind its start. A call crashes exactly if all that it checks is in order
and it then comes to a region of that kind, or if it asks for more packed bytes than a block can have.
-/

namespace Planar

namespace Heap

variable {h : Heap} {p : Handle} {picture : Picture} {s : Storage}
  {m k : Manager} {raw : RawResize} {request : ResizeRequest}

/-! ### Access -/

theorem find_not_crashes (hf : h.find p = .ok (picture, s)) :
    ¬ (Op.ask fun h => find h p).Crashes h := by
  apply Op.not_crashes_ask
  simp [hf]

theorem share_not_crashes (hp : h.picture? p = some picture) : ¬ (share p).Crashes h := by
  simp [Op.Crashes, share, hp]

theorem mapRead_not_crashes (hf : h.find p = .ok (picture, s)) (chroma : String) (region : Region) :
    ¬ (mapRead p chroma region).Crashes h := by
  apply Op.not_crashes_bind (find_not_crashes hf)
  intro found t _
  apply Op.not_crashes_bind (Op.not_crashes_lift _ t)
  intro located u _
  apply Op.not_crashes_bind (Op.not_crashes_lift _ u)
  exact fun view v _ => nofun

theorem mapWrite_not_crashes (hf : h.find p = .ok (picture, s)) (chroma : String) (region : Region) :
    ¬ (mapWrite p chroma region).Crashes h := by
  apply Op.not_crashes_bind (find_not_crashes hf)
  intro found t _
  apply Op.not_crashes_bind (Op.not_crashes_lift _ t)
  rintro ⟨plane, span⟩ u _
  apply Op.not_crashes_bind (Op.not_crashes_answer _ _)
  intro refs v _
  apply Op.not_crashes_check
  apply Op.not_crashes_bind (Op.not_crashes_lift _ v)
  exact fun view w _ => nofun

theorem unmap_not_crashes (hf : h.find p = .ok (picture, s)) (chroma : String) (region : Region) :
    ¬ (unmap p chroma region).Crashes h := by
  apply Op.not_crashes_bind (find_not_crashes hf)
  intro found t _
  apply Op.not_crashes_bind (Op.not_crashes_lift _ t)
  exact fun located u _ => Op.not_crashes_check nofun

theorem tryResize_not_crashes (hf : h.find p = .ok (picture, s)) (request : ResizeRequest) :
    ¬ (tryResize p request).Crashes h := by
  apply Op.not_crashes_bind (find_not_crashes hf)
  intro found t _
  apply Op.not_crashes_check
  apply Op.not_crashes_bind (Op.not_crashes_answer _ _)
  intro refs u _
  apply Op.not_crashes_check
  apply Op.not_crashes_bind (Op.not_crashes_lift _ u)
  exact fun window v _ => nofun

theorem not_crashes_of_region {α : Type} {chroma : String} {raw : RawRegion}
    {f : Region → Op Heap α} (hf : h.find p = .ok (picture, s)) (hr : ∀ r, ¬ (f r).Crashes h) :
    ¬ (Op.ask (normalizeRegion p chroma raw) >>= f).Crashes h := by
  apply Op.not_crashes_bind (Op.not_crashes_ask (normalizeRegion_ne_crash hf chroma raw))
  intro r t ht
  obtain ⟨-, rfl⟩ := Op.ask_eq_ok ht
  exact hr r

theorem planeWrite_not_crashes (hf : h.find p = .ok (picture, s)) (chroma : String)
    (raw : RawRegion) : ¬ (planeWrite p chroma raw).Crashes h := by
  apply not_crashes_of_region hf
  intro region
  exact Op.not_crashes_bind (mapWrite_not_crashes hf chroma region) fun view t _ =>
    Op.not_crashes_of_ok rfl

theorem normalizeResize_ne_crash (hf : h.find p = .ok (picture, s)) (raw : RawResize) :
    normalizeResize p raw h ≠ .error .crash := by
  have hsize : size p h ≠ .error .crash := by
    rw [size_of_find hf]
    exact nofun
  exact Stop.bind_ne_error hsize fun _ _ => Stop.lift_ne_crash _

theorem resize_not_crashes (hf : h.find p = .ok (picture, s)) (raw : RawResize) :
    ¬ (resize p raw).Crashes h := by
  apply Op.not_crashes_bind (Op.not_crashes_ask (normalizeResize_ne_crash hf raw))
  intro request t ht
  obtain ⟨-, rfl⟩ := Op.ask_eq_ok ht
  apply Op.not_crashes_bind (Op.not_crashes_answer _ _)
  intro refs u hu
  obtain ⟨-, rfl⟩ := Op.ask_eq_ok hu
  exact Op.not_crashes_check (tryResize_not_crashes hf request)

/-! ### Copies -/

/-- The new picture is there, and some plane stops the copy. -/
def CopyTorn (h : Heap) (k : Manager) (p : Handle) (raw : RawResize) : Prop :=
  ∃ request, normalizeResize p raw h = .ok request ∧ k.Grants request.newHsize request.newVsize ∧
    k.format.macropixel = request.size.macropixel ∧
      Op.RunsInto (JoinsAt (h.withBlank k request.newHsize request.newVsize) p h.next request.overlap)
        (JoinsTorn (h.withBlank k request.newHsize request.newVsize) p h.next request.overlap)
          (planes p h)

section

variable {q : Handle} {src dst : Picture} {t : Storage}

theorem fillCopy_of_other_macropixel (ha : Apart h p q src dst s t m k)
    (hm : k.format.macropixel ≠ request.size.macropixel) :
    ∃ why, fillCopy p q request h = (.error (.fault why), h) := by
  have hask : Op.ask (Buffers.size q) h = (.ok (dst.visible t), h) := by
    rw [Op.ask_run]
    exact congrArg (·, h) (size_of_find ha.destination.find)
  have hother : (dst.visible t).macropixel ≠ request.size.macropixel := by
    simpa [Picture.visible, ha.destination.made.macropixel] using hm
  unfold fillCopy
  rw [Op.bind_of_ok hask, Op.check_run, if_pos hother]
  exact ⟨_, rfl⟩

theorem rounds_copyInto (ha : Apart h p q src dst s t m k) (hq : Request request m k)
    (hsigned : request.overlap.src.Signed ∧ request.overlap.dst.Signed) :
    ∀ chroma ∈ planes p h, ∀ u, Copying h p q src dst s m k u →
      Op.Round (copyInto p q request) (Copying h p q src dst s m k)
        (JoinsAt h p q request.overlap) (JoinsTorn h p q request.overlap) chroma u :=
  fun _ hchroma _ hu => round_copyInto hq hsigned (ha.source.chromas ▸ hchroma) hu

theorem fillCopy_crashes (ha : Apart h p q src dst s t m k) (hq : Request request m k)
    (hsigned : request.overlap.src.Signed ∧ request.overlap.dst.Signed) :
    (fillCopy p q request).Crashes h ↔
      Op.RunsInto (JoinsAt h p q request.overlap) (JoinsTorn h p q request.overlap) (planes p h) := by
  rw [Op.Crashes, fillCopy_of_macropixel ha hq, ← Op.Crashes, Op.crashes_map]
  exact Op.forM_crashes _ (rounds_copyInto ha hq hsigned) ⟨Kept.refl h, t, ha⟩

theorem fillCopy_keeps (ha : Apart h p q src dst s t m k)
    (hm : request.size.macropixel = m.format.macropixel) (hc : ¬ (fillCopy p q request).Crashes h) :
    Copying h p q src dst s m k (fillCopy p q request h).2 := by
  have hstart : Copying h p q src dst s m k h := ⟨Kept.refl h, t, ha⟩
  by_cases hk : k.format.macropixel = request.size.macropixel
  · have hq : Request request m k := ⟨hm, hk.trans hm⟩
    rw [Op.Crashes, fillCopy_of_macropixel ha hq, ← Op.Crashes, Op.crashes_map] at hc
    rw [fillCopy_of_macropixel ha hq, Op.map_state]
    refine Op.forM_invariant (planes p h) (fun chroma hchroma u hu hn => ?_) hstart hc
    exact copyInto_keeps hq (ha.source.chromas ▸ hchroma) hu hn
  · obtain ⟨why, hrun⟩ := fillCopy_of_other_macropixel ha hk
    rw [hrun]
    exact hstart

end

theorem request_of_normalize (hh : Holds h p picture s m)
    (hn : normalizeResize p raw h = .ok request)
    (hm : k.format.macropixel = request.size.macropixel) : Request request m k := by
  have hq := resolvesTo_of_normalize hh hn
  have hsize : request.size.macropixel = m.format.macropixel := by rw [hq.before]
  exact ⟨hsize, hm.trans hsize⟩

theorem signed_of_normalizeResize (hh : Holds h p picture s m)
    (hskip : raw.hskip.natAbs ≤ Word.maxSigned ∧ raw.vskip.natAbs ≤ Word.maxSigned)
    (hn : normalizeResize p raw h = .ok request) :
    request.overlap.src.Signed ∧ request.overlap.dst.Signed := by
  have hq := resolvesTo_of_normalize hh hn
  apply ResizeRequest.signed_overlap
  · rw [hq.before]
    exact hq.signed
  · rw [hq.hskip, hq.vskip]
    exact hskip

theorem planes_withBlank (hh : Holds h p picture s m) (hk : k.Sound) {hsize vsize : Nat}
    (hg : k.Grants hsize vsize) : planes p (h.withBlank k hsize vsize) = planes p h := by
  rw [(apart_fresh hh hk hg).source.chromas, hh.chromas]

theorem copy_crashes (hh : Holds h p picture s m) (hk : k.Sound)
    (hskip : raw.hskip.natAbs ≤ Word.maxSigned ∧ raw.vskip.natAbs ≤ Word.maxSigned) :
    (copy k p raw).Crashes h ↔ CopyTorn h k p raw := by
  unfold CopyTorn
  obtain ⟨request, hn⟩ | ⟨why, hn⟩ := Stop.ok_or_fault (normalizeResize_ne_crash hh.find raw)
  · simp only [hn, Except.ok.injEq, exists_eq_left']
    by_cases hg : k.Grants request.newHsize request.newVsize
    · have ha := apart_fresh hh hk hg
      rw [Op.Crashes, copy_of_grants hn hg, ← Op.Crashes, Op.crashes_orElseUndo]
      by_cases hm : k.format.macropixel = request.size.macropixel
      · rw [fillCopy_crashes ha (request_of_normalize hh hn hm) (signed_of_normalizeResize hh hskip hn),
          planes_withBlank hh hk hg]
        simp only [hg, hm, true_and]
      · obtain ⟨why, hrun⟩ := fillCopy_of_other_macropixel ha hm
        simp only [hm, Op.not_crashes_of_fault hrun, false_and, and_false]
    · obtain ⟨why, hrun⟩ := copy_of_not_grants hn hg
      simp only [hg, Op.not_crashes_of_fault hrun, false_and]
  · have hfail := Op.not_crashes_of_fault (copy_of_unresolved (m := k) hn)
    simp only [hn, hfail, reduceCtorEq, false_and, exists_false]

theorem request_of_copy {c : Handle} {t : Heap} (hh : Holds h p picture s m) (hk : k.Sound)
    (hc : copy k p raw h = (.ok c, t)) :
    ∃ request, normalizeResize p raw h = .ok request ∧ k.Grants request.newHsize request.newVsize ∧
      c = h.next ∧ Request request m k ∧
        fillCopy p h.next request (h.withBlank k request.newHsize request.newVsize) =
          (.ok h.next, t) := by
  obtain ⟨request, hn, hg, rfl, hfill⟩ := copy_eq_ok.mp hc
  by_cases hm : k.format.macropixel = request.size.macropixel
  · exact ⟨request, hn, hg, rfl, request_of_normalize hh hn hm, hfill⟩
  · obtain ⟨why, hrun⟩ := fillCopy_of_other_macropixel (apart_fresh hh hk hg) hm
    cases hrun.symm.trans hfill

/-- However a copy ends, only the fresh picture came in, and after a fault it is given up. -/
theorem copy_keeps (hh : Holds h p picture s m) (hk : k.Sound) (hc : ¬ (copy k p raw).Crashes h) :
    (∃ why, copy k p raw h = (.error (.fault why), h)) ∨
      ∃ request u, normalizeResize p raw h = .ok request ∧
        k.Grants request.newHsize request.newVsize ∧
          Copying (h.withBlank k request.newHsize request.newVsize) p h.next picture
            (h.fresh k request.newHsize request.newVsize) s m k u ∧
            ((∃ why, copy k p raw h = (.error (.fault why), u.drop h.next)) ∨
              copy k p raw h = (.ok h.next, u)) := by
  obtain ⟨request, hn⟩ | ⟨why, hn⟩ := Stop.ok_or_fault (normalizeResize_ne_crash hh.find raw)
  · by_cases hg : k.Grants request.newHsize request.newVsize
    · have hm : request.size.macropixel = m.format.macropixel := by
        rw [(resolvesTo_of_normalize hh hn).before]
      rw [Op.Crashes, copy_of_grants hn hg, ← Op.Crashes, Op.crashes_orElseUndo] at hc
      have hkept := fillCopy_keeps (apart_fresh hh hk hg) hm hc
      cases hfill : fillCopy p h.next request (h.withBlank k request.newHsize request.newVsize) with
      | mk result u =>
        rw [hfill] at hkept
        refine .inr ⟨request, u, hn, hg, hkept, ?_⟩
        rw [copy_of_grants hn hg]
        cases result with
        | ok c =>
          obtain rfl := fillCopy_eq_ok hfill
          exact .inr (Op.orElseUndo_of_ok hfill)
        | error stop =>
          cases stop with
          | fault why => exact .inl ⟨why, Op.orElseUndo_of_error hfill⟩
          | crash => exact absurd (congrArg Prod.fst hfill) hc
    · obtain ⟨why, hrun⟩ := copy_of_not_grants hn hg
      exact .inl ⟨_, hrun⟩
  · exact .inl ⟨why, copy_of_unresolved hn⟩

theorem replace_crashes : (replace k p raw).Crashes h ↔ (copy k p raw).Crashes h := by
  cases hc : copy k p raw h with
  | mk result t =>
    cases result with
    | ok q => simp [Op.Crashes, replace_of_ok hc, hc]
    | error stop => simp [Op.Crashes, replace_of_error hc, hc]

theorem resizeOrReplace_crashes (hf : h.find p = .ok (picture, s)) :
    (resizeOrReplace k p raw).Crashes h ↔
      (∃ why, (resize p raw h).1 = .error (.fault why) ∧ why.isParameter = false) ∧
        (copy k p raw).Crashes h := by
  cases hr : resize p raw h with
  | mk result t =>
    cases result with
    | ok _ =>
      refine iff_of_false (Op.not_crashes_of_ok (resizeOrReplace_of_ok hr)) ?_
      intro hgiven
      obtain ⟨⟨why, hfail, -⟩, -⟩ := hgiven
      cases hfail
    | error stop =>
      cases stop with
      | crash => exact absurd (congrArg Prod.fst hr) (resize_not_crashes hf raw)
      | fault why =>
        have hcopied : (replace k p raw >>= fun _ => pure ResizePath.copied).Crashes h ↔
            (copy k p raw).Crashes h := Op.crashes_map.trans replace_crashes
        rw [Op.Crashes, resizeOrReplace_of_fault hr]
        simp only [Op.Crashes, Except.error.injEq, Stop.fault.injEq, exists_eq_left'] at hcopied ⊢
        cases why.isParameter with
        | true => simp
        | false => simpa using hcopied

/-! ### All calls -/

end Heap

namespace Action

def SmallSkips : Action → Prop
  | .copy _ _ raw | .replace _ _ raw | .resizeOrReplace _ _ raw =>
    raw.hskip.natAbs ≤ Word.maxSigned ∧ raw.vskip.natAbs ≤ Word.maxSigned
  | _ => True

/-- The call passes its checks and comes to rows out of reach. -/
def Strands (h : Heap) : Action → Prop
  | .clearPlane p raw chroma => h.ClearsTorn p raw chroma
  | .clear p raw => Op.RunsInto (h.ClearsAt p raw) (h.ClearsTorn p raw) (h.planes p)
  | .readPacked p bytes => packedLen p h = .ok bytes.length ∧ h.refCount p = 1 ∧
      Op.RunsInto (h.MapsInFull p) (h.FullTorn p) (h.planes p)
  | .writePacked p => ∃ n, packedLen p h = .ok n ∧
      (Word.maxSigned < n ∨ Op.RunsInto (h.MapsInFull p) (h.FullTorn p) (h.planes p))
  | .copy m p raw | .replace m p raw => h.CopyTorn m p raw
  | .resizeOrReplace m p raw =>
    (∃ why, (Planar.resize p raw h).1 = .error (.fault why) ∧ why.isParameter = false) ∧
      h.CopyTorn m p raw
  | _ => False

end Action

namespace Heap

variable {makers : List Manager} {h : Heap}

theorem perform_crashes (hs : Sound makers h) (a : Action) (ha : a.Legal) (hskips : a.SmallSkips)
    (hlive : ∀ p, a.handle? = some p → ∃ picture, h.picture? p = some picture) :
    a.perform.Crashes h ↔ a.Strands h := by
  have holds {p : Handle} (hp : a.handle? = some p) : ∃ picture s m, Holds h p picture s m := by
    obtain ⟨picture, hpicture⟩ := hlive p hp
    obtain ⟨s, m, hh⟩ := hs.holds hpicture
    exact ⟨picture, s, m, hh⟩
  have sound {m : Manager} (hm : a.manager? = some m) : m.Sound := (ha m hm).sound
  cases a with
  | alloc m hsize vsize =>
    rw [Action.perform, Op.crashes_map]
    refine iff_of_false ?_ id
    by_cases hg : m.Grants hsize vsize
    · exact Op.not_crashes_of_ok (Manager.alloc_of_grants hg h)
    · obtain ⟨why, hrun⟩ := Manager.alloc_of_not_grants hg h
      exact Op.not_crashes_of_fault hrun
  | share p =>
    obtain ⟨picture, hp⟩ := hlive p rfl
    rw [Action.perform, Op.crashes_map]
    refine iff_of_false ?_ id
    exact share_not_crashes hp
  | drop p => exact iff_of_false (Op.not_crashes_of_ok (Op.update_run _ h)) id
  | mapRead p chroma region =>
    obtain ⟨picture, s, m, hh⟩ := holds rfl
    rw [Action.perform, Op.crashes_map]
    exact iff_of_false (mapRead_not_crashes hh.find chroma region) id
  | mapWrite p chroma region edits =>
    obtain ⟨picture, s, m, hh⟩ := holds rfl
    exact iff_of_false (Op.not_crashes_bind (mapWrite_not_crashes hh.find chroma region)
      fun _ t _ => Op.not_crashes_of_ok (Op.update_run _ t)) id
  | unmap p chroma region =>
    obtain ⟨picture, s, m, hh⟩ := holds rfl
    exact iff_of_false (unmap_not_crashes hh.find chroma region) id
  | planeRead p chroma raw =>
    obtain ⟨picture, s, m, hh⟩ := holds rfl
    rw [Action.perform, Op.crashes_map]
    exact iff_of_false (not_crashes_of_region hh.find (mapRead_not_crashes hh.find chroma)) id
  | planeWrite p chroma raw edits =>
    obtain ⟨picture, s, m, hh⟩ := holds rfl
    refine iff_of_false (Op.not_crashes_bind (planeWrite_not_crashes hh.find chroma raw) ?_) id
    rintro ⟨region, view⟩ t _
    exact Op.not_crashes_of_ok (Op.update_run _ t)
  | planeUnmap p chroma raw =>
    obtain ⟨picture, s, m, hh⟩ := holds rfl
    exact iff_of_false (not_crashes_of_region hh.find (unmap_not_crashes hh.find chroma)) id
  | tryResize p request =>
    obtain ⟨picture, s, m, hh⟩ := holds rfl
    exact iff_of_false (tryResize_not_crashes hh.find request) id
  | resize p raw =>
    obtain ⟨picture, s, m, hh⟩ := holds rfl
    exact iff_of_false (resize_not_crashes hh.find raw) id
  | clearPlane p raw chroma =>
    obtain ⟨picture, s, m, hh⟩ := holds rfl
    exact (round_clearPlane hh.writing raw chroma).crashes_iff
  | clear p raw =>
    obtain ⟨picture, s, m, hh⟩ := holds rfl
    exact clear_crashes hh
  | readPacked p bytes =>
    obtain ⟨picture, s, m, hh⟩ := holds rfl
    exact readPacked_crashes hh
  | writePacked p =>
    obtain ⟨picture, s, m, hh⟩ := holds rfl
    exact Op.crashes_map.trans (writePacked_crashes hh)
  | copy m p raw =>
    obtain ⟨picture, s, k, hh⟩ := holds rfl
    exact Op.crashes_map.trans (copy_crashes hh (sound rfl) hskips)
  | replace m p raw =>
    obtain ⟨picture, s, k, hh⟩ := holds rfl
    exact replace_crashes.trans (copy_crashes hh (sound rfl) hskips)
  | resizeOrReplace m p raw =>
    obtain ⟨picture, s, k, hh⟩ := holds rfl
    rw [Action.perform, Op.crashes_map, resizeOrReplace_crashes hh.find,
      copy_crashes hh (sound rfl) hskips]
    exact Iff.rfl

/-- Calls through live handles crash only where rows are out of reach, and always there. -/
theorem crashes_iff_strands (hr : Reachable makers h) (a : Action) (ha : a.Legal)
    (hskips : a.SmallSkips)
    (hlive : ∀ p, a.handle? = some p → ∃ picture, h.picture? p = some picture) :
    (a.perform.Crashes h ↔ a.Strands h) ∧
      ∀ p, a.handle? = some p → packedLen p h ≠ .error .crash := by
  refine ⟨perform_crashes hr.sound a ha hskips hlive, fun p hp => ?_⟩
  obtain ⟨picture, hpicture⟩ := hlive p hp
  obtain ⟨s, m, hh⟩ := hr.sound.holds hpicture
  exact packedLen_ne_crash hh

def tallGray : Heap := applyAll [.alloc grayManager 4 2] .empty

theorem reachable_tallGray : Reachable [grayManager] tallGray :=
  have hm : (Action.alloc grayManager 4 2).makers .empty = [grayManager] := by decide +kernel
  hm ▸ .step (.alloc grayManager 4 2) (legal_of_gray (.inl rfl)) .empty

/-- Two rows of no bytes are blanked. -/
theorem tallGray_strands : (clear ⟨0⟩ ⟨0, 0, 0, 2⟩).Crashes tallGray := by
  have hlive : ∀ p, some (⟨0⟩ : Handle) = some p → ∃ picture, tallGray.picture? p = some picture := by
    intro p hp
    obtain rfl := Option.some.inj hp
    exact ⟨⟨0, ⟨1, 0, 4, 2⟩, 0⟩, by decide +kernel⟩
  obtain ⟨hcrash, -⟩ := crashes_iff_strands reachable_tallGray (.clear ⟨0⟩ ⟨0, 0, 0, 2⟩)
    (legal_of_gray (.inr rfl)) trivial hlive
  have hregion : normalizeRegion ⟨0⟩ "y8" ⟨0, 0, 0, 2⟩ tallGray = .ok ⟨0, 0, 0, 2⟩ :=
    eq_ok_of_toOption (by decide +kernel)
  have hdesc : tallGray.planeDesc ⟨0⟩ "y8" = .ok ⟨8, 1, 1, 1⟩ :=
    eq_ok_of_toOption (by decide +kernel)
  have hfill : Chroma.neutralFill "y8" 1 = .ok [0] := eq_ok_of_toOption (by decide +kernel)
  have hsize : tallGray.size ⟨0⟩ = .ok ⟨4, 2, 1⟩ := eq_ok_of_toOption (by decide +kernel)
  have hclears : Clears tallGray ⟨0⟩ ⟨0, 0, 0, 2⟩ "y8" ⟨0, 0, 0, 2⟩ :=
    ⟨hregion, ⟨_, _, hdesc, hfill⟩, by decide +kernel⟩
  have htorn : tallGray.TornAt ⟨0⟩ "y8" ⟨0, 0, 0, 2⟩ := ⟨_, _, hsize, hdesc, by decide⟩
  exact hcrash.mpr ⟨[], "y8", [], by decide +kernel, nofun, _, hclears, htorn⟩

/-- A picture that was cropped to no columns cannot be packed. -/
example : (writePacked ⟨0⟩).Crashes (applyAll [.resize ⟨0⟩ ⟨0, 0, 0, 2⟩] tallGray) := by
  decide +kernel

end Heap

end Planar
