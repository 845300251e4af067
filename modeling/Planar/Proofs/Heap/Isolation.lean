import Planar.Proofs.Heap.Run
set_option autoImplicit false

/-!
Copy on write: handles share storage, but nobody sees what another one writes.
-/

namespace Planar.Heap

variable {makers : List Manager} {h : Heap}

/-- The bytes behind a handle stay as long as no call overwrites them through that handle. -/
theorem Sound.keeps (hs : Sound makers h) {q : Handle} {picture : Picture} {s : Storage}
    (hq : h.find q = .ok (picture, s)) (as : List Action) (ha : ∀ a ∈ as, a.Legal)
    (ho : ∀ a ∈ as, a.handle? = some q → a.overwrites = false) :
    ∃ picture', (Heap.applyAll as h).find q = .ok (picture', s) ∧
      ((∀ a ∈ as, a.handle? ≠ some q) → picture' = picture) := by
  induction as generalizing makers h picture with
  | nil => exact ⟨picture, hq, fun _ => rfl⟩
  | cons a as ih =>
    have hstep := step_apply a (ha a List.mem_cons_self) hs
    have hnext := hs.apply a (ha a List.mem_cons_self)
    have hlegal : ∀ b ∈ as, b.Legal := fun b hb => ha b (List.mem_cons_of_mem a hb)
    have hrest : ∀ b ∈ as, b.handle? = some q → b.overwrites = false := fun b hb =>
      ho b (List.mem_cons_of_mem a hb)
    by_cases haq : a.handle? = some q
    · obtain ⟨picture', hq'⟩ := hstep.bytes (ho a List.mem_cons_self haq) q picture s hq
      obtain ⟨picture'', hlast, -⟩ := ih hnext hq' hlegal hrest
      exact ⟨picture'', hlast, fun hnone => absurd haq (hnone a List.mem_cons_self)⟩
    · have hq' := hstep.others q picture s haq hq
      obtain ⟨picture'', hlast, hsame⟩ := ih hnext hq' hlegal hrest
      exact ⟨picture'', hlast, fun hnone => hsame fun b hb => hnone b (List.mem_cons_of_mem a hb)⟩

/-- A live handle has its bytes. A call through another handle, successful or not, leaves its
window, its mappings and its storage as they are, and a run leaves its storage unless a call
through the handle itself writes, replaces the picture or gives it up. -/
theorem isolated (hr : Reachable makers h) {q : Handle} {picture : Picture}
    (hq : h.picture? q = some picture) :
    ∃ s, h.find q = .ok (picture, s) ∧
      (∀ a : Action, a.Legal → a.handle? ≠ some q → (a.apply h).find q = .ok (picture, s)) ∧
        ∀ as : List Action, (∀ a ∈ as, a.Legal) →
          (∀ a ∈ as, a.handle? = some q → a.overwrites = false) →
            ∃ picture', (applyAll as h).find q = .ok (picture', s) ∧
              ((∀ a ∈ as, a.handle? ≠ some q) → picture' = picture) := by
  have hs := hr.sound
  obtain ⟨s, -, hf, -⟩ := hs.find hq
  exact ⟨s, hf, fun a ha hne => (step_apply a ha hs).others q picture s hne hf,
    fun as ha ho => hs.keeps hf as ha ho⟩

theorem sharedGray_isolated :
    ∃ s, sharedGray.find ⟨1⟩ = .ok (⟨0, ⟨1, 0, 2, 1⟩, 0⟩, s) ∧
      (applyAll [.replace grayManager ⟨0⟩ ⟨0, 0, 1, 1⟩, .readPacked ⟨0⟩ [7]] sharedGray).find ⟨1⟩ =
        .ok (⟨0, ⟨1, 0, 2, 1⟩, 0⟩, s) := by
  have hq : sharedGray.picture? ⟨1⟩ = some ⟨0, ⟨1, 0, 2, 1⟩, 0⟩ := by decide +kernel
  obtain ⟨s, hf, -, hrun⟩ := isolated reachable_sharedGray hq
  have hlegal : ∀ a ∈ [Action.replace grayManager ⟨0⟩ ⟨0, 0, 1, 1⟩, .readPacked ⟨0⟩ [7]], a.Legal := by
    simp only [List.forall_mem_cons]
    exact ⟨legal_of_gray (.inl rfl), legal_of_gray (.inr rfl), nofun⟩
  obtain ⟨picture', hlast, hsame⟩ := hrun _ hlegal (by decide)
  exact ⟨s, hf, hsame (by decide) ▸ hlast⟩

end Planar.Heap
