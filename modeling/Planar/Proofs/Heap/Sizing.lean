import Mathlib.Data.List.Forall2
import Planar.Proofs.Heap.Admission
import Planar.Proofs.Heap.Words
set_option autoImplicit false

/-!
How large an allocation is, and when it is granted. The strides are told by what they are, the least
multiples of the alignment with room for a row. The way to them is gone once more in machine words,
where every sum and product may fail and a divisor may be zero; it ends as without words.
-/

namespace Planar

namespace Word

/-- A quotient. A divisor of zero stops the program. -/
def divide (a b : Nat) : Except Stop Nat := if b = 0 then .error .crash else .ok (a / b)

def remainder (a b : Nat) : Except Stop Nat := if b = 0 then .error .crash else .ok (a % b)

/-- `Grid.roundUp` in words. What is added is less than the grid, so only the sum can fail. -/
def roundUp? (n grid : Nat) : Option Nat :=
  if grid = 0 then none
  else if n % grid = 0 then some n
  else checked (n + (grid - n % grid))

def orStop (stop : Stop) : Option Nat → Except Stop Nat
  | some n => .ok n
  | none => .error stop

theorem divide_of_pos {b : Nat} (a : Nat) (h : 0 < b) : divide a b = .ok (a / b) :=
  if_neg (Nat.ne_of_gt h)

theorem remainder_of_pos {b : Nat} (a : Nat) (h : 0 < b) : remainder a b = .ok (a % b) :=
  if_neg (Nat.ne_of_gt h)

theorem roundUp?_of_le {n grid : Nat} (hg : 0 < grid) (h : n ≤ maxUnsigned) :
    roundUp? n grid = checked (Grid.roundUp n grid) := by
  unfold roundUp? Grid.roundUp
  rw [if_neg (Nat.ne_of_gt hg)]
  split
  · exact (checked_of_le h).symm
  · rfl

theorem bind_roundUp? {grid : Nat} (n : Nat) (hg : 0 < grid) :
    (checked n).bind (roundUp? · grid) = checked (Grid.roundUp n grid) := by
  -- a product that is no word is not rounded to one
  by_cases h : n ≤ maxUnsigned
  · rw [checked_of_le h, Option.bind_some, roundUp?_of_le hg h]
  · have hle := Grid.le_roundUp n grid
    rw [checked_of_not_le h, checked_of_not_le (by omega)]
    rfl

theorem bind_checked_add (a b c : Nat) :
    (checked (a + b)).bind (fun n => checked (n + c)) = checked (a + b + c) := by
  by_cases h : a + b ≤ maxUnsigned
  · rw [checked_of_le h]
    rfl
  · rw [checked_of_not_le h, checked_of_not_le (by omega)]
    rfl

theorem orStop_bind {α : Type} (stop : Stop) (n : Nat) (f : Nat → Except Stop α) :
    orStop stop (checked n) >>= f = if n > maxUnsigned then .error stop else f n := by
  by_cases h : n ≤ maxUnsigned
  · rw [checked_of_le h, if_neg (by omega)]
    rfl
  · rw [checked_of_not_le h, if_pos (by omega)]
    rfl

end Word

namespace Manager

def planeInWords (m : Manager) (refuse : Refusal → Stop) (p : PlaneFormat) (totalH totalV : Nat) :
    Except Stop PlaneStore := do
  let samples ← Word.divide totalH p.hsub
  let units ← Word.divide samples m.format.macropixel
  let stride ← Word.orStop (refuse (.strideOverflow p.chroma))
    ((Word.checked (units * p.macropixelSize)).bind (Word.roundUp? · m.align))
  let desc : PlaneDesc := ⟨stride, p.hsub, p.vsub, p.macropixelSize⟩
  let len ← Word.orStop (refuse (.sizeOverflow p.chroma)) (Word.checked (stride * desc.rows totalV))
  if len > Word.maxSigned then throw (refuse (.planeTooLarge p.chroma))
  if len > m.memory then throw (refuse (.outOfMemory p.chroma))
  return ⟨p.chroma, desc, Array.replicate len 0⟩

def storageInWords (m : Manager) (refuse : Refusal → Stop) (hsize vsize : Nat) :
    Except Stop Storage := do
  let hgrid := m.format.hgrid
  let vgrid := m.format.vgrid
  let columns ← Word.remainder hsize hgrid
  let lines ← Word.remainder vsize vgrid
  if columns ≠ 0 ∨ lines ≠ 0 then throw (refuse (.offGrid hgrid vgrid))
  let totalH ← Word.orStop (refuse .widthOverflow)
    ((Word.checked (m.hprepend + hsize)).bind fun h => Word.checked (h + m.happend))
  let totalV ← Word.orStop (refuse .heightOverflow)
    ((Word.checked (m.vprepend + vsize)).bind fun v => Word.checked (v + m.vappend))
  let planes ← m.format.planes.mapM fun p => m.planeInWords refuse p totalH totalV
  return ⟨m.format.macropixel, totalH, totalV, hgrid, vgrid, planes⟩

def allocInWords (m : Manager) (hsize vsize : Nat) : Op Heap Handle := fun h =>
  match m.storageInWords (fun why => .fault (.refused hsize vsize why)) hsize vsize with
  | .error stop => (.error stop, h)
  | .ok storage =>
    let (handle, h) := h.allocate storage ⟨m.hprepend, m.vprepend, hsize, vsize⟩
    (.ok handle, h)

theorem planeInWords_eq {m : Manager} (hm : m.Sound) {p : PlaneFormat} (hp : p ∈ m.format.planes)
    (refuse : Refusal → Stop) (totalH totalV : Nat) :
    m.planeInWords refuse p totalH totalV = (m.plane p totalH totalV).mapError refuse := by
  have hfactors := hm.format.factors_pos p hp
  simp only [planeInWords, Manager.plane, Word.divide_of_pos _ hfactors.1,
    Word.divide_of_pos _ hm.format.macropixel_pos, Except.ok_bind, Word.bind_roundUp? _ hm.align_pos,
    Word.orStop_bind, Except.check_eq, Except.mapError_check]
  rfl

theorem storageInWords_eq {m : Manager} (hm : m.Sound) (hw : m.format.InWords)
    (refuse : Refusal → Stop) (hsize vsize : Nat) :
    m.storageInWords refuse hsize vsize = (m.storage hsize vsize).mapError refuse := by
  have hplanes : ∀ totalH totalV, m.format.planes.mapM (m.planeInWords refuse · totalH totalV) =
      (m.format.planes.mapM (m.plane · totalH totalV)).mapError refuse :=
    fun totalH totalV => Except.mapM_mapError fun p hp => planeInWords_eq hm hp refuse totalH totalV
  simp only [storageInWords, Manager.storage, Word.remainder_of_pos _ hw.hgrid_pos,
    Word.remainder_of_pos _ hw.vgrid_pos, Except.ok_bind, Word.bind_checked_add, Word.orStop_bind,
    Except.check_eq, Except.mapError_check, hplanes, Except.mapError_bind]

/-- No word overflows unseen and nothing is divided by zero. -/
theorem allocInWords_eq {m : Manager} (hm : m.Sound) (hw : m.format.InWords) (hsize vsize : Nat) :
    m.allocInWords hsize vsize = m.alloc hsize vsize := by
  funext h
  unfold allocInWords alloc
  rw [storageInWords_eq hm hw]
  cases m.storage hsize vsize <;> rfl

/-! ### Grants -/

/-- The least multiple of the alignment with room for a row of so many pixels. -/
def IsStride (m : Manager) (p : PlaneFormat) (totalH stride : Nat) : Prop :=
  IsLeast {n | max m.align 1 ∣ n ∧ totalH / p.hsub / m.format.macropixel * p.macropixelSize ≤ n} stride

/-- What is asked of a size, told in unbounded numbers. -/
structure Allows (m : Manager) (hsize vsize : Nat) : Prop where
  hgrid : m.format.hgrid ∣ hsize
  vgrid : m.format.vgrid ∣ vsize
  totalH : m.hprepend + hsize + m.happend < 2 ^ 64
  totalV : m.vprepend + vsize + m.vappend < 2 ^ 64
  planes : ∀ p ∈ m.format.planes, ∃ stride, m.IsStride p (m.hprepend + hsize + m.happend) stride ∧
    stride < 2 ^ 64 ∧ stride * ((m.vprepend + vsize + m.vappend) / p.vsub) ≤ 2 ^ 63 - 1

structure Blank (m : Manager) (totalH totalV : Nat) (p : PlaneFormat) (plane : PlaneStore) : Prop where
  format : plane.format = p
  stride : m.IsStride p totalH plane.desc.stride
  data : plane.data = Array.replicate (plane.desc.stride * (totalV / p.vsub)) 0

theorem isStride_iff {m : Manager} (hm : m.Sound) {p : PlaneFormat} {totalH stride : Nat} :
    m.IsStride p totalH stride ↔ stride = m.stride p totalH := by
  have hleast := Grid.isLeast_roundUp (totalH / p.hsub / m.format.macropixel * p.macropixelSize) hm.align_pos
  unfold IsStride
  rw [Nat.max_eq_left hm.align_pos]
  constructor
  · exact fun h => h.unique hleast
  · rintro rfl
    exact hleast

theorem hasRoom_iff {m : Manager} (hm : m.Sound) (hroom : Word.maxSigned ≤ m.memory) {p : PlaneFormat}
    (hp : p ∈ m.format.planes) {totalH totalV : Nat} :
    m.HasRoom totalH totalV p ↔ ∃ stride, m.IsStride p totalH stride ∧ stride < 2 ^ 64 ∧
      stride * (totalV / p.vsub) ≤ 2 ^ 63 - 1 := by
  have hmaxU : Word.maxUnsigned = 2 ^ 64 - 1 := by decide
  have hmaxS : Word.maxSigned = 2 ^ 63 - 1 := by decide
  have hvsub : max p.vsub 1 = p.vsub := Nat.max_eq_left (hm.format.factors_pos p hp).2.1
  unfold HasRoom
  simp only [blankPlane, PlaneDesc.rows, hvsub, Array.size_replicate]
  constructor
  · rintro ⟨hs, hl, -⟩
    exact ⟨_, (isStride_iff hm).mpr rfl, by omega, by omega⟩
  · rintro ⟨stride, hs, hword, hl⟩
    obtain rfl := (isStride_iff hm).mp hs
    exact ⟨by omega, by omega, by omega⟩

theorem grants_iff_allows {m : Manager} (hm : m.Sound) (hroom : Word.maxSigned ≤ m.memory)
    {hsize vsize : Nat} : m.Grants hsize vsize ↔ m.Allows hsize vsize := by
  have hmax : Word.maxUnsigned = 2 ^ 64 - 1 := by decide
  constructor
  · intro hg
    have hh := hg.totalH
    have hv := hg.totalV
    unfold totalH at hh
    unfold totalV at hv
    exact ⟨hg.hgrid, hg.vgrid, by omega, by omega,
      fun p hp => (hasRoom_iff hm hroom hp).mp (hg.planes p hp)⟩
  · intro ha
    have hh := ha.totalH
    have hv := ha.totalV
    refine ⟨ha.hgrid, ha.vgrid, ?_, ?_, fun p hp => (hasRoom_iff hm hroom hp).mpr (ha.planes p hp)⟩
    · unfold totalH
      omega
    · unfold totalV
      omega

theorem blank_blankPlane {m : Manager} (hm : m.Sound) {p : PlaneFormat} (hp : p ∈ m.format.planes)
    (totalH totalV : Nat) : m.Blank totalH totalV p (m.blankPlane totalH totalV p) := by
  have hfactors := hm.format.factors_pos p hp
  refine ⟨rfl, (isStride_iff hm).mpr rfl, ?_⟩
  simp only [blankPlane, PlaneDesc.rows, Nat.max_eq_left (Nat.succ_le_of_lt hfactors.2.1)]

structure Allocates (m : Manager) (hsize vsize : Nat) (p : Handle) (h : Heap) : Prop where
  window : h.window p = .ok ⟨m.hprepend, m.vprepend, hsize, vsize⟩
  mapped : h.mapped p = .ok 0
  exclusive : isExclusive p h = true
  planes : ∃ s, h.storage? p = some s ∧ List.Forall₂
    (m.Blank (m.hprepend + hsize + m.happend) (m.vprepend + vsize + m.vappend)) m.format.planes s.planes

theorem allocates_withBlank {m : Manager} (hm : m.Sound) (h : Heap) {hsize vsize : Nat}
    (hg : m.Grants hsize vsize) : m.Allocates hsize vsize h.next (h.withBlank m hsize vsize) := by
  have hh := Heap.holds_fresh h hm hg
  refine ⟨?_, ?_, ?_, m.blankStorage hsize vsize, ?_, ?_⟩
  · unfold Heap.window
    rw [hh.find]
    rfl
  · unfold Heap.mapped
    rw [hh.find]
    rfl
  · have hone : (h.withBlank m hsize vsize).refCount h.next = 1 :=
      (Heap.refCount_eq hh.picture?).trans Heap.refs_fresh
    exact beq_iff_eq.mpr hone
  · exact (Heap.storage?_eq hh.picture?).trans hh.stored?
  · unfold blankStorage
    rw [List.forall₂_map_right_iff, List.forall₂_same]
    exact fun p hp => blank_blankPlane hm hp _ _

/-- An allocation in words, with every sum and product checked, is the allocation; it is granted exactly
if the size is on the grids and all unbounded numbers fit. The new picture is blank and exclusive, its
strides are the least ones, and its window lies behind the margins. Otherwise it is refused. -/
theorem alloc_exact {m : Manager} (hm : m.Built) (hw : m.format.InWords)
    (hroom : Word.maxSigned ≤ m.memory) (hsize vsize : Nat) (h : Heap) :
    m.allocInWords hsize vsize = m.alloc hsize vsize ∧
      ((∃ p t, m.alloc hsize vsize h = (.ok p, t)) ↔ m.Allows hsize vsize) ∧
      (∀ p t, m.alloc hsize vsize h = (.ok p, t) → m.Allocates hsize vsize p t) ∧
      ∀ stop t, m.alloc hsize vsize h = (.error stop, t) →
        t = h ∧ ∃ why, stop = .fault (.refused hsize vsize why) := by
  refine ⟨allocInWords_eq hm.sound hw hsize vsize, ?_⟩
  rw [← grants_iff_allows hm.sound hroom]
  by_cases hg : m.Grants hsize vsize
  · have hrun := alloc_of_grants hg h
    refine ⟨⟨fun _ => hg, fun _ => ⟨_, _, hrun⟩⟩, fun p t ht => ?_, fun stop t ht => ?_⟩
    · cases hrun.symm.trans ht
      exact allocates_withBlank hm.sound h hg
    · cases hrun.symm.trans ht
  · obtain ⟨why, hrun⟩ := alloc_of_not_grants hg h
    refine ⟨⟨?_, fun hgrant => absurd hgrant hg⟩, fun p t ht => ?_, fun stop t ht => ?_⟩
    · rintro ⟨p, t, ht⟩
      cases hrun.symm.trans ht
    · cases hrun.symm.trans ht
    · cases hrun.symm.trans ht
      exact ⟨rfl, why, rfl⟩

/-- Without lines the widest rows still count: a stride may be the last multiple of the alignment that is a
word, but not the next one. -/
theorem colorManager_widest :
    (∃ p t, Heap.colorManager.alloc (2 ^ 64 - 16) 0 .empty = (.ok p, t)) ∧
      ∃ why, Heap.colorManager.alloc (2 ^ 64 - 2) 0 .empty =
        (.error (.fault (.refused (2 ^ 64 - 2) 0 why)), .empty) := by
  have hm := Heap.built_colorManager.sound
  have hroom : Word.maxSigned ≤ Heap.colorManager.memory := by decide +kernel
  have hw : Heap.colorManager.format.InWords := by constructor <;> decide +kernel
  obtain ⟨-, hwide, -, -⟩ := alloc_exact Heap.built_colorManager hw hroom (2 ^ 64 - 16) 0 .empty
  obtain ⟨-, hwider, -, hrefused⟩ := alloc_exact Heap.built_colorManager hw hroom (2 ^ 64 - 2) 0 .empty
  constructor
  · have hplanes : ∀ p ∈ Heap.colorManager.format.planes,
        Heap.colorManager.stride p (2 ^ 64 - 16) < 2 ^ 64 ∧
          Heap.colorManager.stride p (2 ^ 64 - 16) * (0 / p.vsub) ≤ 2 ^ 63 - 1 := by decide +kernel
    exact hwide.mpr ⟨by decide +kernel, by decide +kernel, by decide +kernel, by decide +kernel,
      fun p hp => ⟨_, (isStride_iff hm).mpr rfl, hplanes p hp⟩⟩
  · cases hrun : Heap.colorManager.alloc (2 ^ 64 - 2) 0 .empty with
    | mk result t =>
      cases result with
      | ok p =>
        -- The stride of the first plane would be 2⁶⁴.
        obtain ⟨stride, hs, hword, -⟩ :=
          (hwider.mp ⟨p, t, hrun⟩).planes ⟨"y8", 1, 1, 1⟩ (by decide +kernel)
        obtain rfl := (isStride_iff hm).mp hs
        exact absurd hword (by decide +kernel)
      | error stop =>
        obtain ⟨rfl, why, rfl⟩ := hrefused stop t hrun
        exact ⟨why, rfl⟩

end Manager

end Planar
