import Planar.Proofs.Heap.Run
set_option autoImplicit false

/-!
The layout of pictures: every live one has a window on the grids of its format, planes with
room for every line and every row, and an exact count of its handles.
-/

namespace Planar

/-- A window inside the allocation that a manager made, and planes as its format has them. The window is on
the grids of the format if no margin before it wrapped around when it was rounded up to them. -/
structure Picture.LaidOut (picture : Picture) (s : Storage) (m : Manager) : Prop where
  inside : picture.window.right ≤ s.hsize ∧ picture.window.bottom ≤ s.vsize
  sizes : m.format.hgrid ∣ picture.window.hsize ∧ m.format.vgrid ∣ picture.window.vsize
  offsets : m.Unwrapped →
    m.format.hgrid ∣ picture.window.hoffset ∧ m.format.vgrid ∣ picture.window.voffset
  formats : s.macropixel = m.format.macropixel ∧ s.planes.map PlaneStore.format = m.format.planes
  planes : ∀ p ∈ s.planes, p.data.size = p.desc.stride * p.desc.rows s.vsize ∧
    p.desc.rowBytes s.hsize s.macropixel ≤ p.desc.stride ∧ m.align ∣ p.desc.stride
  factors : ∀ p ∈ s.planes, 0 < p.desc.hsub ∧ 0 < p.desc.vsub ∧ 0 < p.desc.macropixelSize
  names : (s.planes.map PlaneStore.chroma).Nodup

theorem Storage.MadeBy.factors {s : Storage} {m : Manager} (hs : s.MadeBy m) (hm : m.Sound) :
    ∀ p ∈ s.planes, 0 < p.desc.hsub ∧ 0 < p.desc.vsub ∧ 0 < p.desc.macropixelSize := by
  intro p hp
  have hf : p.format ∈ m.format.planes := hs.planes ▸ List.mem_map_of_mem hp
  exact hm.format.factors_pos p.format hf

theorem Storage.MadeBy.names {s : Storage} {m : Manager} (hs : s.MadeBy m) (hm : m.Sound) :
    (s.planes.map PlaneStore.chroma).Nodup := by
  have hn := hm.format.names
  rw [← hs.planes, List.map_map] at hn
  exact hn

theorem Storage.MadeBy.laidOut {s : Storage} {m : Manager} (hs : s.MadeBy m) (hm : m.Sound)
    {picture : Picture} (hw : picture.window.Held s m) : picture.LaidOut s m where
  inside := ⟨hw.right, hw.bottom⟩
  sizes := ⟨hs.hgrid ▸ hw.hsize, hs.vgrid ▸ hw.vsize⟩
  offsets := by
    intro hfits
    rw [← hs.hgrid, ← hs.vgrid]
    exact hw.offsets hfits.exact.toOnGrids
  formats := ⟨hs.macropixel, hs.planes⟩
  planes := fun p hp => ⟨(hs.roomy p hp).size_data, (hs.roomy p hp).covers, hs.aligned p hp⟩
  factors := hs.factors hm
  names := hs.names hm

namespace Heap

/-- Every live handle of every run: its picture is laid out as the manager of its storage has
it, and its count is the number of live handles with that storage. -/
theorem laidOut_of_reachable {makers : List Manager} {h : Heap} (hr : Reachable makers h)
    {p : Handle} {picture : Picture} (hp : h.picture? p = some picture) :
    ∃ s m, h.find p = .ok (picture, s) ∧ makers[picture.storage]? = some m ∧
      picture.LaidOut s m ∧ h.refCount p = h.sharers picture.storage := by
  have hs := hr.sound
  obtain ⟨s, m, hf, hk, hm, hmade, hw⟩ := hs.find hp
  refine ⟨s, m, hf, hk, hmade.laidOut hm hw, ?_⟩
  rw [refCount_eq hp, hs.counted]

theorem sharedGray_laidOut : grayManager.Unwrapped ∧
    ∃ s, sharedGray.find ⟨1⟩ = .ok (⟨0, ⟨1, 0, 2, 1⟩, 0⟩, s) ∧
      (⟨0, ⟨1, 0, 2, 1⟩, 0⟩ : Picture).LaidOut s grayManager ∧ sharedGray.refCount ⟨1⟩ = 2 := by
  have hp : sharedGray.picture? ⟨1⟩ = some ⟨0, ⟨1, 0, 2, 1⟩, 0⟩ := by decide +kernel
  obtain ⟨s, m, hf, hk, hl, hc⟩ := laidOut_of_reachable reachable_sharedGray hp
  obtain rfl : grayManager = m := Option.some.inj hk
  exact ⟨unwrapped_grayManager, s, hf, hl, hc.trans (by decide +kernel)⟩

end Heap

end Planar
