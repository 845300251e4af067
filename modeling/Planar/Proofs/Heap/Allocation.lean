import Planar.Heap.Manager
import Planar.Proofs.Grid
import Planar.Proofs.Operation
set_option autoImplicit false

/-!
What a manager allocates: blank planes with room for all rows, margins included. A storage
keeps the layout that its manager gave it, so the layout is said here once.
-/

namespace Planar

def PlaneStore.format (p : PlaneStore) : PlaneFormat :=
  ⟨p.chroma, p.desc.hsub, p.desc.vsub, p.desc.macropixelSize⟩

structure PlaneStore.Roomy (p : PlaneStore) (hsize vsize macropixel : Nat) : Prop where
  size_data : p.data.size = p.desc.stride * p.desc.rows vsize
  covers : p.desc.rowBytes hsize macropixel ≤ p.desc.stride
  bounded : p.data.size ≤ Word.maxSigned

/-- The storage has the planes of the manager's format. -/
structure Storage.MadeBy (s : Storage) (m : Manager) : Prop where
  macropixel : s.macropixel = m.format.macropixel
  hgrid : s.hgrid = m.format.hgrid
  vgrid : s.vgrid = m.format.vgrid
  planes : s.planes.map PlaneStore.format = m.format.planes
  roomy : ∀ p ∈ s.planes, p.Roomy s.hsize s.vsize s.macropixel
  aligned : ∀ p ∈ s.planes, m.align ∣ p.desc.stride

/-- The window lies in the allocation and on the grids of the storage. -/
structure Region.OnGrid (w : Region) (s : Storage) : Prop where
  right : w.right ≤ s.hsize
  bottom : w.bottom ≤ s.vsize
  hoffset : s.hgrid ∣ w.hoffset
  voffset : s.vgrid ∣ w.voffset
  hsize : s.hgrid ∣ w.hsize
  vsize : s.vgrid ∣ w.vsize

namespace Manager

structure Sound (m : Manager) : Prop where
  format : m.format.Valid
  align_pos : 0 < m.align

structure OnGrids (m : Manager) : Prop where
  hprepend : m.format.hgrid ∣ m.hprepend
  vprepend : m.format.vgrid ∣ m.vprepend

/-- The grids are words, and the margins before the window are on them. -/
structure Exact (m : Manager) : Prop extends OnGrids m where
  format : m.format.Exact

end Manager

/-- The grids are words, and so are the margins before the window when they have been rounded up. -/
structure Config.Fits (config : Config) (format : PictureFormat) : Prop where
  grids : format.Exact
  hprepend : Grid.roundUp config.hprepend format.hgrid ≤ Word.maxUnsigned
  vprepend : Grid.roundUp config.vprepend format.vgrid ≤ Word.maxUnsigned

def Manager.Unwrapped (m : Manager) : Prop :=
  ∃ config memory, config.Fits m.format ∧ m = { Manager.build m.format config with memory }

/-- What every window keeps. A window that was never moved begins where the margins end, so that it is on
the grids if they are. -/
structure Region.Held (w : Region) (s : Storage) (m : Manager) : Prop where
  right : w.right ≤ s.hsize
  bottom : w.bottom ≤ s.vsize
  hsize : s.hgrid ∣ w.hsize
  vsize : s.vgrid ∣ w.vsize
  offsets : m.OnGrids → s.hgrid ∣ w.hoffset ∧ s.vgrid ∣ w.voffset

theorem Region.OnGrid.held {w : Region} {s : Storage} (hw : w.OnGrid s) (m : Manager) : w.Held s m :=
  ⟨hw.right, hw.bottom, hw.hsize, hw.vsize, fun _ => ⟨hw.hoffset, hw.voffset⟩⟩

theorem Region.Held.onGrid {w : Region} {s : Storage} {m : Manager} (hw : w.Held s m)
    (hm : m.OnGrids) : w.OnGrid s :=
  ⟨hw.right, hw.bottom, (hw.offsets hm).1, (hw.offsets hm).2, hw.hsize, hw.vsize⟩

namespace Manager

/-- The managers that callers can get, on machines with any amount of memory. -/
inductive Built : Manager → Prop where
  | ofFormat {format : PictureFormat} {m : Manager} (memory : Nat)
      (h : ofFormat format = .ok m) : Built { m with memory }
  | ofConfig {config : Config} {m : Manager} (memory : Nat)
      (h : ofConfig config = .ok m) : Built { m with memory }

theorem sound_build {format : PictureFormat} (h : format.Valid) (config : Config) (memory : Nat) :
    Sound { build format config with memory } where
  format := h
  align_pos := Nat.lt_of_lt_of_le Nat.zero_lt_one (Nat.le_max_right ..)

theorem exact_build {format : PictureFormat} {config : Config} (h : config.Fits format) (memory : Nat) :
    Exact { build format config with memory } where
  hprepend := by
    simp only [build, Word.wrap_of_le h.hprepend]
    exact Grid.dvd_roundUp _ h.grids.hgrid_pos
  vprepend := by
    simp only [build, Word.wrap_of_le h.vprepend]
    exact Grid.dvd_roundUp _ h.grids.vgrid_pos
  format := h.grids

theorem Unwrapped.exact {m : Manager} (h : m.Unwrapped) : m.Exact := by
  obtain ⟨config, memory, hfits, hm⟩ := h
  rw [hm]
  exact exact_build hfits memory

theorem valid_of_resolve {spec : FormatSpec} {format : PictureFormat}
    (h : spec.resolve = .ok format) : format.Valid := by
  have checked (f : PictureFormat)
      (hf : (f.validate.mapError ConfigFault.invalid).map (fun _ => f) = .ok format) :
      format.Valid := by
    cases hv : f.validate with
    | error why => simp [hv, Except.mapError_error, Except.map] at hf
    | ok u =>
      simp [hv, Except.mapError_ok, Except.map] at hf
      exact hf ▸ PictureFormat.validate_eq_ok.mp hv
  unfold FormatSpec.resolve at h
  split at h
  · split at h
    · cases h
    · exact checked _ h
  · exact checked _ h

theorem ofConfig_eq_ok {config : Config} {m : Manager} (h : ofConfig config = .ok m) :
    ∃ format, config.format.resolve = .ok format ∧ m = build format config := by
  unfold ofConfig at h
  cases hr : config.format.resolve with
  | error why => simp [hr, bind, Except.bind] at h
  | ok format =>
    simp [hr, bind, Except.bind, pure, Except.pure] at h
    exact ⟨format, rfl, h.symm⟩

theorem Built.sound {m : Manager} (h : Built m) : m.Sound := by
  cases h with
  | @ofFormat format m memory h =>
    unfold Manager.ofFormat at h
    cases hv : format.validate with
    | error why => simp [hv, bind, Except.bind] at h
    | ok u =>
      simp [hv, bind, Except.bind, pure, Except.pure] at h
      exact h ▸ sound_build (PictureFormat.validate_eq_ok.mp hv) _ memory
  | @ofConfig config m memory h =>
    obtain ⟨format, hr, rfl⟩ := ofConfig_eq_ok h
    exact sound_build (valid_of_resolve hr) config memory

/-! ### Planes -/

def stride (m : Manager) (p : PlaneFormat) (totalH : Nat) : Nat :=
  Grid.roundUp (totalH / p.hsub / m.format.macropixel * p.macropixelSize) m.align

def blankPlane (m : Manager) (totalH totalV : Nat) (p : PlaneFormat) : PlaneStore :=
  let desc : PlaneDesc := ⟨m.stride p totalH, p.hsub, p.vsub, p.macropixelSize⟩
  ⟨p.chroma, desc, Array.replicate (desc.stride * desc.rows totalV) 0⟩

@[simp] theorem format_blankPlane (m : Manager) (totalH totalV : Nat) (p : PlaneFormat) :
    (m.blankPlane totalH totalV p).format = p := rfl

def HasRoom (m : Manager) (totalH totalV : Nat) (p : PlaneFormat) : Prop :=
  let plane := m.blankPlane totalH totalV p
  plane.desc.stride ≤ Word.maxUnsigned ∧ plane.data.size ≤ Word.maxSigned ∧
    plane.data.size ≤ m.memory

theorem plane_eq_ok {m : Manager} {p : PlaneFormat} {totalH totalV : Nat} {plane : PlaneStore} :
    m.plane p totalH totalV = .ok plane ↔
      m.HasRoom totalH totalV p ∧ plane = m.blankPlane totalH totalV p := by
  have hw : Word.maxSigned ≤ Word.maxUnsigned := by decide
  simp only [Manager.plane, check_eq_ok, HasRoom, blankPlane, stride, Array.size_replicate, pure,
    Except.pure, Except.ok.injEq]
  constructor
  · intro hgiven
    obtain ⟨hs, ho, hb, hm, rfl⟩ := hgiven
    exact ⟨⟨by omega, by omega, by omega⟩, rfl⟩
  · intro hgiven
    obtain ⟨⟨hs, hb, hm⟩, rfl⟩ := hgiven
    exact ⟨by omega, by omega, by omega, by omega, rfl⟩

theorem mapM_eq_ok {α β ε : Type} {f : α → Except ε β} {P : α → Prop} {g : α → β}
    (hf : ∀ a b, f a = .ok b ↔ P a ∧ b = g a) (as : List α) (bs : List β) :
    as.mapM f = .ok bs ↔ (∀ a ∈ as, P a) ∧ bs = as.map g := by
  induction as generalizing bs with
  | nil => simp [pure, Except.pure, eq_comm]
  | cons a as ih =>
    rw [List.mapM_cons]
    cases ha : f a with
    | error e =>
      have hn : ¬ P a := fun hp => by simp [(hf a (g a)).mpr ⟨hp, rfl⟩] at ha
      simp [bind, Except.bind, hn]
    | ok b =>
      obtain ⟨hp, rfl⟩ := (hf a b).mp ha
      cases hr : as.mapM f with
      | error e =>
        have hn : ¬ ∀ x ∈ as, P x := fun h => by simp [(ih _).mpr ⟨h, rfl⟩] at hr
        simp [bind, Except.bind, hp, hn]
      | ok rest =>
        obtain ⟨hrest, rfl⟩ := (ih rest).mp hr
        simp only [bind, Except.bind, pure, Except.pure, Except.ok.injEq, List.map_cons,
          List.forall_mem_cons, hp, true_and]
        exact ⟨fun h => ⟨hrest, h.symm⟩, fun h => h.2.symm⟩

/-! ### Storages -/

def totalH (m : Manager) (hsize : Nat) : Nat := m.hprepend + hsize + m.happend

def totalV (m : Manager) (vsize : Nat) : Nat := m.vprepend + vsize + m.vappend

def blankStorage (m : Manager) (hsize vsize : Nat) : Storage :=
  ⟨m.format.macropixel, m.totalH hsize, m.totalV vsize, m.format.hgrid, m.format.vgrid,
    m.format.planes.map (m.blankPlane (m.totalH hsize) (m.totalV vsize))⟩

def window (m : Manager) (hsize vsize : Nat) : Region := ⟨m.hprepend, m.vprepend, hsize, vsize⟩

/-- The sizes that a manager grants. -/
structure Grants (m : Manager) (hsize vsize : Nat) : Prop where
  hgrid : m.format.hgrid ∣ hsize
  vgrid : m.format.vgrid ∣ vsize
  totalH : m.totalH hsize ≤ Word.maxUnsigned
  totalV : m.totalV vsize ≤ Word.maxUnsigned
  planes : ∀ p ∈ m.format.planes, m.HasRoom (m.totalH hsize) (m.totalV vsize) p

theorem storage_eq_ok {m : Manager} {hsize vsize : Nat} {s : Storage} :
    m.storage hsize vsize = .ok s ↔ m.Grants hsize vsize ∧ s = m.blankStorage hsize vsize := by
  have hplane (p : PlaneFormat) (plane : PlaneStore) :
      m.plane p (m.totalH hsize) (m.totalV vsize) = .ok plane ↔
        m.HasRoom (m.totalH hsize) (m.totalV vsize) p ∧
          plane = m.blankPlane (m.totalH hsize) (m.totalV vsize) p := plane_eq_ok
  have hmap := mapM_eq_ok hplane m.format.planes
  have hg : ¬ (hsize % m.format.hgrid ≠ 0 ∨ vsize % m.format.vgrid ≠ 0) ↔
      m.format.hgrid ∣ hsize ∧ m.format.vgrid ∣ vsize := by
    rw [Nat.dvd_iff_mod_eq_zero, Nat.dvd_iff_mod_eq_zero]
    omega
  simp only [Manager.storage, check_eq_ok, Except.bind_eq_ok, hg]
  constructor
  · intro hgiven
    obtain ⟨⟨hh, hv⟩, hth, htv, planes, hm, hs⟩ := hgiven
    obtain ⟨hroom, rfl⟩ := (hmap planes).mp hm
    cases hs
    exact ⟨⟨hh, hv, Nat.le_of_not_lt hth, Nat.le_of_not_lt htv, hroom⟩, rfl⟩
  · intro hgiven
    obtain ⟨h, rfl⟩ := hgiven
    exact ⟨⟨h.hgrid, h.vgrid⟩, Nat.not_lt_of_le h.totalH, Nat.not_lt_of_le h.totalV, _,
      (hmap _).mpr ⟨h.planes, rfl⟩, rfl⟩

theorem alloc_of_grants {m : Manager} {hsize vsize : Nat} (hg : m.Grants hsize vsize) (h : Heap) :
    m.alloc hsize vsize h =
      (.ok ⟨h.pictures.size⟩, (h.allocate (m.blankStorage hsize vsize) (m.window hsize vsize)).2) := by
  unfold alloc
  rw [storage_eq_ok.mpr ⟨hg, rfl⟩]
  rfl

theorem alloc_of_not_grants {m : Manager} {hsize vsize : Nat} (hg : ¬ m.Grants hsize vsize)
    (h : Heap) : ∃ why, m.alloc hsize vsize h = (.error (.fault (.refused hsize vsize why)), h) := by
  unfold alloc
  cases hs : m.storage hsize vsize with
  | error why => exact ⟨why, rfl⟩
  | ok s => exact absurd (storage_eq_ok.mp hs).1 hg

theorem madeBy_blankStorage {m : Manager} (hm : m.Sound) {hsize vsize : Nat}
    (hg : m.Grants hsize vsize) : (m.blankStorage hsize vsize).MadeBy m where
  macropixel := rfl
  hgrid := rfl
  vgrid := rfl
  planes := by simp [blankStorage, Function.comp_def]
  roomy := by
    intro plane hp
    obtain ⟨p, hmem, rfl⟩ := List.mem_map.mp hp
    have hpos := hm.format.factors_pos p hmem
    have hmac := hm.format.macropixel_pos
    refine ⟨by simp [blankPlane, blankStorage], ?_, (hg.planes p hmem).2.1⟩
    simp only [blankPlane, blankStorage, PlaneDesc.rowBytes, stride]
    rw [Nat.max_eq_left hpos.1, Nat.max_eq_left hmac]
    exact Grid.le_roundUp _ _
  aligned := by
    intro plane hp
    obtain ⟨p, hmem, rfl⟩ := List.mem_map.mp hp
    exact Grid.dvd_roundUp _ hm.align_pos

theorem window_held {m : Manager} {hsize vsize : Nat} (hg : m.Grants hsize vsize) :
    (m.window hsize vsize).Held (m.blankStorage hsize vsize) m where
  right := by simp [Region.right, window, blankStorage, totalH]
  bottom := by simp [Region.bottom, window, blankStorage, totalV]
  hsize := hg.hgrid
  vsize := hg.vgrid
  offsets := fun hm => ⟨hm.hprepend, hm.vprepend⟩

end Manager

end Planar
