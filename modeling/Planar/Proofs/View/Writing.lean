import Mathlib.Algebra.GroupWithZero.Nat
import Mathlib.Data.List.Induction
import Planar.Proofs.Kernels
set_option autoImplicit false

/-!
Which views there are, and what becomes of a block when rows of its view are written one after another.
Each row ends with what was written to it last, and nothing else in the block changes.
-/

namespace Planar

variable {shape : Shape} {block : Bytes} {v w : View} {rows : Nat → List UInt8}
  {writes : List (Nat × List UInt8)} {row : List UInt8} {n : Nat}

namespace View

def writeRows? (v : View) (writes : List (Nat × List UInt8)) : Option View :=
  writes.foldlM (fun w write => w.setRow? write.1 write.2) v

/-- What was written to each row last, and what was there before if nothing was. -/
def lastWritten (before : Nat → List UInt8) (writes : List (Nat × List UInt8)) (y : Nat) : List UInt8 :=
  (writes.reverse.lookup y).getD (before y)

theorem lastWritten_concat (before : Nat → List UInt8) (writes : List (Nat × List UInt8)) (n : Nat)
    (row : List UInt8) : lastWritten before (writes ++ [(n, row)]) =
      Function.update (lastWritten before writes) n row := by
  funext y
  unfold lastWritten
  rw [List.reverse_append, List.reverse_singleton, List.singleton_append, List.lookup_cons]
  by_cases hy : y = n
  · subst hy
    simp
  · simp [hy, beq_false_of_ne hy]

theorem length_lastWritten {before : Nat → List UInt8} {y count : Nat}
    (hbefore : (before y).length = count) (hwrites : ∀ write ∈ writes, write.2.length = count) :
    (lastWritten before writes y).length = count := by
  induction writes using List.reverseRecOn with
  | nil => exact hbefore
  | append_singleton writes write ih =>
    obtain ⟨hearlier, hlast⟩ := List.forall_mem_append.mp hwrites
    rw [lastWritten_concat]
    by_cases hy : y = write.1
    · subst hy
      rw [Function.update_self]
      exact hlast write (List.mem_singleton_self write)
    · rw [Function.update_of_ne hy]
      exact ih hearlier

/-! ### One write -/

theorem setRow?_of_unfit (h : ¬ (n < v.shape.rows ∧ row.length = v.shape.rowBytes)) :
    v.setRow? n row = none := by
  unfold setRow? start?
  by_cases hlen : row.length = v.shape.rowBytes
  · rw [if_pos hlen, if_neg fun hn => h ⟨hn.1, hlen⟩]
    rfl
  · rw [if_neg hlen]

theorem Rewrites.overwrite (hv : v.shape.Apart) (hn : n < v.shape.rows)
    (hlen : row.length = v.shape.rowBytes) (hw : v.Rewrites rows (List.range v.shape.rows) w) :
    v.Rewrites (Function.update rows n row) (List.range v.shape.rows)
      (w.overwrite (n * v.shape.stride) row) := by
  have hnew : w.Rewrites (fun _ => row) [n] (w.overwrite (n * w.shape.stride) row) :=
    rewrites_overwrite (hw.shape ▸ hv) (hw.shape ▸ hn) (hw.shape ▸ hlen)
  rw [hw.shape] at hnew
  have hinside := hnew.inside
  have houtside := hnew.outside
  rw [hw.shape] at hinside houtside
  refine ⟨hnew.shape.trans hw.shape, fun y hy c hc => ?_, fun i hi => ?_⟩
  · by_cases hyn : y = n
    · subst hyn
      rw [Function.update_self, hinside y (List.mem_singleton_self y) c hc]
    · rw [Function.update_of_ne hyn, houtside, hw.inside y hy c hc]
      intro z hz hin
      obtain rfl := List.mem_singleton.mp hz
      have hrow : v.shape.InRow y (y * v.shape.stride + c) := ⟨by omega, by omega⟩
      exact hyn (hv.eq_of_inRow (List.mem_range.mp hy) hn hrow hin)
  · rw [houtside i, hw.outside i hi]
    intro z hz
    obtain rfl := List.mem_singleton.mp hz
    exact hi z (List.mem_range.mpr hn)

/-! ### Many writes -/

theorem exists_writeRows?_iff (hv : v.shape.Apart) : (∃ w, v.writeRows? writes = some w) ↔
    ∀ write ∈ writes, write.1 < v.shape.rows ∧ write.2.length = v.shape.rowBytes := by
  induction writes generalizing v with
  | nil => simp [writeRows?]
  | cons write writes ih =>
    rw [List.forall_mem_cons]
    unfold writeRows? at ih ⊢
    rw [List.foldlM_cons]
    by_cases hfit : write.1 < v.shape.rows ∧ write.2.length = v.shape.rowBytes
    · rw [setRow?_of_apart hv hfit.1 hfit.2]
      exact (ih (v := v.overwrite (write.1 * v.shape.stride) write.2) hv).trans
        (and_iff_right hfit).symm
    · rw [setRow?_of_unfit hfit]
      refine iff_of_false ?_ fun h => hfit h.1
      rintro ⟨w, hw⟩
      cases hw

theorem rewrites_writeRows? (hv : v.shape.Apart) (hrows : v.Rewrites rows (List.range v.shape.rows) v)
    (h : v.writeRows? writes = some w) :
    v.Rewrites (lastWritten rows writes) (List.range v.shape.rows) w := by
  -- the last write is looked at first, since it decides about its row
  induction writes using List.reverseRecOn generalizing w with
  | nil =>
    cases h
    exact hrows
  | append_singleton writes write ih =>
    obtain ⟨n, row⟩ := write
    unfold writeRows? at h ih
    rw [List.foldlM_append] at h
    obtain ⟨u, hu, hlast⟩ := Option.bind_eq_some_iff.mp h
    have hrewrites := ih hu
    have hset : u.setRow? n row = some w := by simpa using hlast
    by_cases hfit : n < u.shape.rows ∧ row.length = u.shape.rowBytes
    · rw [setRow?_of_apart (hrewrites.shape ▸ hv) hfit.1 hfit.2] at hset
      cases hset
      rw [hrewrites.shape] at hfit ⊢
      rw [lastWritten_concat]
      exact hrewrites.overwrite hv hfit.1 hfit.2
    · rw [setRow?_of_unfit hfit] at hset
      cases hset

/-! ### Views of a block -/

def rowsOf (shape : Shape) (block : Bytes) (y : Nat) : List UInt8 :=
  (block.window (y * shape.stride) shape.rowBytes).toList

def reach (shape : Shape) : Nat :=
  if shape.rows = 0 then 0 else (shape.rows - 1) * shape.stride + shape.rowBytes

theorem len_eq (hpos : 0 < shape.rowBytes) : shape.len = Word.saturate (reach shape) := by
  unfold Shape.len reach
  by_cases hr : shape.rows = 0
  · rw [if_pos (.inl hr), if_pos hr]
    rfl
  · rw [if_neg (by omega), if_neg hr]

theorem len_le_iff (hsmall : block.size ≤ Word.maxSigned) (hpos : 0 < shape.rowBytes) :
    shape.len ≤ block.size ↔ reach shape ≤ block.size := by
  have hword : Word.maxSigned < Word.maxUnsigned := by decide
  rw [len_eq hpos]
  unfold Word.saturate
  omega

theorem exists_ofBytes_iff (hsmall : block.size ≤ Word.maxSigned) (hpos : 0 < shape.rowBytes) :
    (∃ v, ofBytes block shape = .ok v) ↔ shape.rows = 0 ∨
      (shape.rows = 1 ∨ shape.rowBytes ≤ shape.stride) ∧
        (shape.rows - 1) * shape.stride + shape.rowBytes ≤ block.size := by
  have hlen := len_le_iff hsmall hpos
  unfold reach at hlen
  constructor
  · rintro ⟨v, hv⟩
    obtain ⟨hcovers, hfits, -, -⟩ := ofBytes_eq_ok.mp hv
    rw [hlen] at hfits
    by_cases hr : shape.rows = 0
    · exact .inl hr
    · rw [if_neg hr] at hfits
      exact .inr ⟨by omega, hfits⟩
  · intro hgiven
    have hfits : shape.len ≤ block.size := by
      rw [hlen]
      split <;> omega
    exact ⟨⟨shape, block.window 0 shape.len, Bytes.size_window _ (by omega)⟩,
      ofBytes_eq_ok.mpr ⟨by omega, hfits, rfl, rfl⟩⟩

theorem row?_eq (hv : ofBytes block shape = .ok v) (hs : shape.Apart) (y : Nat) :
    v.row? y = if y < shape.rows then some (rowsOf shape block y) else none := by
  split
  · exact row?_of_ofBytes hv hs ‹_›
  · rename_i hy
    obtain ⟨-, -, hshape, -⟩ := ofBytes_eq_ok.mp hv
    unfold row? start?
    rw [hshape, if_neg fun h => hy h.1]
    rfl

theorem rewrites_of_ofBytes (hv : ofBytes block shape = .ok v) (hs : shape.Apart) :
    v.Rewrites (rowsOf shape block) (List.range v.shape.rows) v := by
  obtain ⟨-, hfits, rfl, -⟩ := ofBytes_eq_ok.mp hv
  refine ⟨rfl, fun y hy c hc => ?_, fun _ _ => rfl⟩
  have hin := hs.held y (List.mem_range.mp hy)
  unfold rowsOf
  rw [byte_of_ofBytes hv (by omega), Bytes.toList_window (by omega)]
  simp [hc]

theorem Rewrites.row?_eq (hv : v.shape.Apart) (hw : v.Rewrites rows (List.range v.shape.rows) w)
    (hn : n < v.shape.rows) (hlen : (rows n).length = v.shape.rowBytes) : w.row? n = some (rows n) := by
  have hin := hv.held n hn
  have hsize : n * v.shape.stride + v.shape.rowBytes ≤ w.data.size := by
    rw [w.size_data, hw.shape]
    exact hin
  unfold row?
  rw [start?_of_apart (hw.shape ▸ hv) (hw.shape ▸ hn), Option.map_some, hw.shape,
    Bytes.toList_window hsize, ← map_range_row hlen]
  congr 1
  apply List.map_congr_left
  intro c hc
  exact hw.inside n (List.mem_range.mpr hn) c (List.mem_range.mp hc)

/-- The view has the rows of the block, each in its place and apart from the others, and ends with the
last one. Rows with the right bytes can be written in any sequence. Each one then is what was written to it
last, in the view and where the view is put back, and the bytes between the rows and behind them stay. -/
structure Shows (shape : Shape) (block : Bytes) (v : View) : Prop where
  size : v.data.size = reach shape
  slice : v.data = block.window 0 v.data.size
  row : ∀ y, v.row? y = if y < shape.rows then some (rowsOf shape block y) else none
  inside : ∀ y, y < shape.rows → y * shape.stride + shape.rowBytes ≤ block.size
  words : ∀ y, y < shape.rows → y * shape.stride + shape.rowBytes < 2 ^ 64
  apart : ∀ y z i, y < shape.rows → z < shape.rows → shape.InRow y i → shape.InRow z i → y = z
  writable : ∀ writes, (∃ w, v.writeRows? writes = some w) ↔
    ∀ write ∈ writes, write.1 < shape.rows ∧ write.2.length = shape.rowBytes
  written : ∀ writes w, v.writeRows? writes = some w →
    (∀ y, y < shape.rows → w.row? y = some (lastWritten (rowsOf shape block) writes y)) ∧
      Bytes.Rewritten shape (lastWritten (rowsOf shape block) writes) block (w.putBack block 0)

theorem shows_of_ofBytes (hv : ofBytes block shape = .ok v) (hsmall : block.size ≤ Word.maxSigned)
    (hpos : 0 < shape.rowBytes) : Shows shape block v := by
  have hs := apart_of_ofBytes hv hsmall hpos
  have hrewrites := rewrites_of_ofBytes hv hs
  have hmax : Word.maxSigned = 2 ^ 63 - 1 := by decide
  obtain ⟨-, hfits, rfl, hdata⟩ := ofBytes_eq_ok.mp hv
  have hinside : ∀ y, y < v.shape.rows → y * v.shape.stride + v.shape.rowBytes ≤ block.size :=
    fun y hy => Nat.le_trans (hs.held y hy) hfits
  have hreach : v.shape.len = reach v.shape := by
    have hle := (len_le_iff hsmall hpos).mp hfits
    rw [len_eq hpos]
    exact Word.saturate_of_le (Nat.le_trans hle (Nat.le_trans hsmall (by decide)))
  refine ⟨v.size_data.trans hreach, ?_, row?_eq hv hs, hinside, ?_,
    fun y z i hy hz => hs.eq_of_inRow hy hz, fun writes => exists_writeRows?_iff hs, ?_⟩
  · rw [v.size_data]
    exact hdata
  · intro y hy
    have hle := hinside y hy
    omega
  · intro writes w hw
    have hfit := (exists_writeRows?_iff hs).mp ⟨w, hw⟩
    have hlast := rewrites_writeRows? hs hrewrites hw
    have hlen : ∀ y, y < v.shape.rows →
        (lastWritten (rowsOf v.shape block) writes y).length = v.shape.rowBytes := by
      intro y hy
      refine length_lastWritten ?_ fun write hwrite => (hfit write hwrite).2
      unfold rowsOf
      rw [Array.length_toList, Bytes.size_window _ (hinside y hy)]
    exact ⟨fun y hy => hlast.row?_eq hs hy (hlen y hy), hlast.rewritten hv hs hlen⟩

/-- A block has a view exactly if there are no rows, or they lie apart and the last one ends in the block,
all of it told in unbounded numbers; and the view then shows the rows of the block. -/
theorem ofBytes_shows_rows (hsmall : block.size ≤ 2 ^ 63 - 1) (hpos : 0 < shape.rowBytes) :
    ((∃ v, ofBytes block shape = .ok v) ↔ shape.rows = 0 ∨
      (shape.rows = 1 ∨ shape.rowBytes ≤ shape.stride) ∧
        (shape.rows - 1) * shape.stride + shape.rowBytes ≤ block.size) ∧
    ∀ v, ofBytes block shape = .ok v → Shows shape block v :=
  ⟨exists_ofBytes_iff hsmall hpos, fun _ hv => shows_of_ofBytes hv hsmall hpos⟩

theorem rows_written_twice : ∃ (block : Bytes) (v w : View), block = Array.replicate 15 0 ∧
    ofBytes block ⟨6, 2, 3⟩ = .ok v ∧ v.data.size = 14 ∧
      v.writeRows? [(1, [7, 8]), (2, [5, 6]), (1, [9, 4])] = some w ∧ w.row? 1 = some [9, 4] ∧
        w.row? 0 = some [0, 0] ∧ (w.putBack block 0)[8]? = some 0 ∧
          ¬ ∃ u, v.writeRows? [(1, [7, 8]), (3, [5, 6])] = some u := by
  obtain ⟨block, hblock⟩ : ∃ block : Bytes, block = Array.replicate 15 0 := ⟨_, rfl⟩
  have hsize : block.size = 15 := hblock ▸ Array.size_replicate
  have hsmall : block.size ≤ 2 ^ 63 - 1 := by
    rw [hsize]
    decide
  obtain ⟨hmade, hshows⟩ := ofBytes_shows_rows hsmall (show 0 < Shape.rowBytes ⟨6, 2, 3⟩ by decide)
  obtain ⟨v, hv⟩ := hmade.mpr (.inr ⟨.inr (by decide), by rw [hsize]; decide⟩)
  have hall := hshows v hv
  obtain ⟨w, hw⟩ := (hall.writable [(1, [7, 8]), (2, [5, 6]), (1, [9, 4])]).mpr (by decide)
  obtain ⟨hrows, hback⟩ := hall.written _ w hw
  have hbehind : ∀ y, y < 3 → ¬ Shape.InRow ⟨6, 2, 3⟩ y 8 := by
    rintro y hy ⟨hfrom, hto⟩
    simp only at hfrom hto
    omega
  refine ⟨block, v, w, hblock, hv, hall.size, hw, hrows 1 (by decide), ?_, ?_, ?_⟩
  · rw [hrows 0 (by decide), hblock]
    rfl
  · rw [hback.outside 8 hbehind, hblock]
    rfl
  · rw [hall.writable]
    decide

end View

end Planar
