import Planar.Proofs.Heap.Crashes
import Planar.Proofs.Release
import Planar.Scripted
set_option autoImplicit false

/-!
Mapped counts. What a call maps it releases, so that the counts of all pictures on a heap are the same
afterwards, whether it ends well or in a fault.
-/

namespace Planar

def Access.action (p : Handle) : Access Manager → Action
  | .clearPlane raw chroma => .clearPlane p raw chroma
  | .clear raw => .clear p raw
  | .readPacked bytes => .readPacked p bytes
  | .writePacked => .writePacked p
  | .copy m raw => .copy m p raw

theorem Access.perform_action (a : Access Manager) (p : Handle) :
    (a.action p).perform = a.perform p := by
  cases a <;> rfl

namespace Heap

variable {h u : Heap} {p q : Handle} {picture src dst : Picture} {s t : Storage} {m k : Manager}
  {chroma : String} {raw : RawResize} {request : ResizeRequest} {makers : List Manager} {o : Overlap}

/-! ### Copies -/

theorem picture?_copy (hh : Holds h p src s m) (hk : k.Sound) (hc : ¬ (copy k p raw).Crashes h)
    (hq : h.picture? q = some picture) : (copy k p raw h).2.picture? q = some picture := by
  obtain ⟨why, hrun⟩ | ⟨request, u, -, -, hcopying, hrun⟩ := copy_keeps hh hk hc
  · rw [hrun, hq]
  · have hne : q ≠ h.next := ne_of_live hq
    have hpicture : u.picture? q = some picture := by
      rw [hcopying.kept.picture?, picture?_withBlank, if_neg hne, hq]
    obtain ⟨why, hrun⟩ | hrun := hrun
    · rw [hrun]
      exact (picture?_drop_ne hne).trans hpicture
    · rw [hrun, hpicture]

/-! ### Counts -/

theorem picture?_perform (a : Access Manager) (hm : (a.action p).Legal) (hh : Holds h p src s m)
    (hc : ¬ (a.perform p).Crashes h) (hq : h.picture? q = some picture) :
    (a.perform p h).2.picture? q = some picture := by
  cases a with
  | clearPlane raw chroma =>
    exact (((round_clearPlane hh.writing raw chroma).keeps hc).kept.picture? q).trans hq
  | clear raw => exact ((clear_keeps hh hc).kept.picture? q).trans hq
  | readPacked bytes => exact ((readPacked_keeps hh hc).kept.picture? q).trans hq
  | writePacked =>
    have hstate : ((Access.writePacked (μ := Manager)).perform p h).2 = (Planar.writePacked p h).2 :=
      Op.map_state
    rw [hstate, writePacked_keeps hh (mt Op.crashes_map.mpr hc), hq]
  | copy k raw =>
    have hstate : ((Access.copy k raw).perform p h).2 = (Planar.copy k p raw h).2 := Op.map_state
    rw [hstate]
    exact picture?_copy hh (hm k rfl).sound (mt Op.crashes_map.mpr hc) hq

theorem mapped_of_find (hf : h.find p = .ok (picture, s)) : h.mapped p = .ok picture.mapped := by
  unfold mapped
  rw [hf]
  rfl

/-- A call on pictures of any kind runs as it would without a record. If it ends, be it in a fault, and
all sizes and layouts stayed the same, then each mapping that was made was released by the next call
on the same picture, and nothing else was released. So pictures on a heap have as many mappings as before. -/
theorem mappings_released :
    (∀ {σ β μ : Type} [Buffers σ β] [Allocator σ μ β] (a : Access μ) (b : β) (s : σ),
      a.perform b s = ((a.watch b s).1, (a.watch b s).2.now) ∧
        ((a.watch b s).1 ≠ .error .crash → (a.watch b s).2.Steady →
          ∀ n, Call.Paired ((a.watch b s).2.calls.filter (·.number = n)))) ∧
      ∀ {makers : List Manager} {h : Heap}, Reachable makers h →
        ∀ (a : Access Manager) (p : Handle), (a.action p).Legal →
          (∃ picture, h.picture? p = some picture) → ¬ (a.perform p).Crashes h →
            ∀ q picture, h.picture? q = some picture → (a.perform p h).2.mapped q = h.mapped q := by
  constructor
  · intro σ β μ _ _ a b s
    exact ⟨a.perform_eq_watch b s, fun hc hsteady => a.paired_watch b s hc hsteady⟩
  · rintro makers h hr a p ha ⟨src, hp⟩ hc q picture hq
    obtain ⟨s, m, hh⟩ := hr.sound.holds hp
    have hkept := picture?_perform a ha hh hc hq
    have hnext := (hr.step (a.action p) ha).sound
    rw [Action.apply, Access.perform_action] at hnext
    obtain ⟨_, -, hf, -⟩ := hr.sound.find hq
    obtain ⟨_, -, hf', -⟩ := hnext.find hkept
    rw [mapped_of_find hf, mapped_of_find hf']

def lonePicture : Scripted.Stage :=
  ⟨#[], #[⟨"p", ⟨2, 1, 1⟩, 1, [⟨"y8", ⟨2, 1, 1, 1⟩, #[1, 2], none⟩], []⟩]⟩

def lockedPicture : Scripted.Picture :=
  ⟨"c", ⟨2, 1, 1⟩, 1, [⟨"y8", ⟨2, 1, 1, 1⟩, #[0, 0], none⟩], [("map_write y8", .notExclusive 2)]⟩

def lockedCopy : Access Scripted.Manager := .copy (.offering lockedPicture) ⟨0, 0, toEnd, toEnd⟩

theorem pictures_lockedCopy : (lockedCopy.watch ⟨0⟩ lonePicture).2.seen.map Scripted.Stage.pictures =
    List.replicate 4 (lonePicture.pictures.push lockedPicture) := by
  rfl

theorem steady_lockedCopy : (lockedCopy.watch ⟨0⟩ lonePicture).2.Steady := by
  have hpictures : ∀ u ∈ (lockedCopy.watch ⟨0⟩ lonePicture).2.seen,
      u.pictures = lonePicture.pictures.push lockedPicture := by
    intro u hu
    have hmem := List.mem_map_of_mem (f := Scripted.Stage.pictures) hu
    rw [pictures_lockedCopy] at hmem
    exact List.eq_of_mem_replicate hmem
  intro u hu v hv b
  simp only [Buffers.size, Buffers.planeDesc, Scripted.Stage.picture, hpictures u hu, hpictures v hv,
    true_and, implies_true]

theorem lockedCopy_released :
    (∀ n, Call.Paired ((lockedCopy.watch ⟨0⟩ lonePicture).2.calls.filter (·.number = n))) ∧
      ((Access.copy grayManager ⟨0, 0, toEnd, toEnd⟩).perform ⟨0⟩ tallGray).2.mapped ⟨0⟩ =
        tallGray.mapped ⟨0⟩ := by
  obtain ⟨hwatched, hheap⟩ := mappings_released
  have hends : (lockedCopy.watch ⟨0⟩ lonePicture).1 ≠ .error .crash := by
    have hfault : (lockedCopy.watch ⟨0⟩ lonePicture).1 =
        .error (.fault (.mapping "y8" (.notExclusive 2))) := rfl
    rw [hfault]
    exact nofun
  have hlive : tallGray.picture? ⟨0⟩ = some ⟨0, ⟨1, 0, 4, 2⟩, 0⟩ := by decide +kernel
  have hcopied : ¬ ((Access.copy grayManager ⟨0, 0, toEnd, toEnd⟩).perform ⟨0⟩).Crashes tallGray := by
    decide +kernel
  have hpaired := (hwatched lockedCopy ⟨0⟩ lonePicture).2
  constructor
  · exact hpaired hends steady_lockedCopy
  · exact hheap reachable_tallGray (.copy grayManager ⟨0, 0, toEnd, toEnd⟩) ⟨0⟩ (legal_of_gray (.inl rfl))
      ⟨_, hlive⟩ hcopied ⟨0⟩ _ hlive

end Heap

end Planar
