import Planar.Proofs.Operation
import Planar.View.Rows
set_option autoImplicit false

/-!
Views by row and column: which rows a view holds, and what is left of it when the first rows have
got other bytes.
-/

namespace Planar

namespace Bytes

def byte (data : Bytes) (i : Nat) : UInt8 := data[i]?.getD 0

theorem getElem?_eq_of_byte {a b : Bytes} {i j : Nat} (hi : i < a.size) (hj : j < b.size)
    (h : a.byte i = b.byte j) : a[i]? = b[j]? := by
  unfold byte at h
  rw [Array.getElem?_eq_getElem hi, Array.getElem?_eq_getElem hj] at *
  exact congrArg some h

theorem byte_put (data : Bytes) (start : Nat) (xs : List UInt8) (i : Nat) :
    (put data start xs).byte i =
      if start ≤ i ∧ i < start + xs.length ∧ i < data.size then xs[i - start]?.getD 0
      else data.byte i := by
  unfold byte
  rw [getElem?_put]
  split <;> rfl

theorem byte_window (data : Bytes) (start count i : Nat) :
    (window data start count).byte i = if i < count then data.byte (start + i) else 0 := by
  unfold byte window
  rw [Array.getElem?_extract]
  split
  · rename_i h
    rw [if_pos (by omega)]
  · rename_i h
    split
    · rw [Array.getElem?_eq_none (by omega)]
    · rfl

theorem toList_window {data : Bytes} {start count : Nat} (h : start + count ≤ data.size) :
    (window data start count).toList = (List.range count).map fun i => data.byte (start + i) := by
  apply List.ext_getElem?
  intro i
  have hb := byte_window data start count i
  have hs := size_window data h
  unfold byte at hb
  rw [Array.getElem?_toList]
  by_cases hi : i < count
  · rw [if_pos hi] at hb
    rw [List.getElem?_map, List.getElem?_range hi, Array.getElem?_eq_getElem (by omega)] at *
    simpa [byte] using hb
  · simp [hi, hs]

end Bytes

theorem mem_row {stride y y₀ c n : Nat} (hc : c < stride) (hn : n ≤ stride) :
    (y₀ * stride ≤ y * stride + c ∧ y * stride + c < y₀ * stride + n) ↔ y = y₀ ∧ c < n := by
  obtain hlt | heq | hgt := Nat.lt_trichotomy y y₀
  · have := Nat.mul_le_mul_right stride (Nat.succ_le_of_lt hlt)
    rw [Nat.succ_mul] at this
    omega
  · subst heq
    omega
  · have := Nat.mul_le_mul_right stride (Nat.succ_le_of_lt hgt)
    rw [Nat.succ_mul] at this
    omega

/-- Rows that hold bytes, lie apart and can be counted. -/
structure Shape.Regular (s : Shape) : Prop where
  rowBytes_pos : 0 < s.rowBytes
  covers : s.rowBytes ≤ s.stride
  bounded : s.rows * s.stride ≤ Word.maxUnsigned

theorem Shape.Regular.len {s : Shape} (hs : s.Regular) (hr : 0 < s.rows) :
    s.len = (s.rows - 1) * s.stride + s.rowBytes := by
  have hb := hs.bounded
  have hc := hs.covers
  have hp := hs.rowBytes_pos
  obtain ⟨n, hn⟩ : ∃ n, s.rows = n + 1 := ⟨s.rows - 1, by omega⟩
  rw [hn, Nat.succ_mul] at hb
  unfold Shape.len
  rw [if_neg (by omega), Word.saturate_of_le]
  · rw [hn, Nat.add_sub_cancel]
    omega

theorem Shape.Regular.row_le_len {s : Shape} (hs : s.Regular) {y : Nat} (hy : y < s.rows) :
    y * s.stride + s.rowBytes ≤ s.len := by
  rw [hs.len (by omega)]
  have := Nat.mul_le_mul_right s.stride (show y ≤ s.rows - 1 by omega)
  omega

/-- Rows that lie apart and of which a kernel finds each one that it goes through: of rows without
bytes these are the first two. -/
structure Shape.Whole (s : Shape) : Prop where
  covers : s.rowBytes ≤ s.stride
  held : ∀ y, y < s.rows → (s.rowBytes = 0 → y < 2) → y * s.stride + s.rowBytes ≤ s.len

/-- Rows without bytes of which the second one does not start at zero. No view holds it. -/
def Shape.Torn (s : Shape) : Prop := s.rowBytes = 0 ∧ 1 < s.rows ∧ 0 < s.stride

instance (s : Shape) : Decidable s.Torn := inferInstanceAs (Decidable (_ ∧ _ ∧ _))

theorem Shape.Regular.whole {s : Shape} (hs : s.Regular) : s.Whole :=
  ⟨hs.covers, fun _ hy _ => hs.row_le_len hy⟩

theorem Shape.len_of_empty {s : Shape} (hb : s.rowBytes = 0) : s.len = 0 := if_pos (.inr hb)

theorem Shape.whole_of_not_torn {s : Shape} (hs : 0 < s.rowBytes → s.Regular) (ht : ¬ s.Torn) :
    s.Whole := by
  rcases Nat.eq_zero_or_pos s.rowBytes with hb | hb
  · refine ⟨hb ▸ Nat.zero_le _, fun y hy htwo => ?_⟩
    have hfirst : y = 0 ∨ s.stride = 0 := by
      have := htwo hb
      unfold Torn at ht
      omega
    have hstart : y * s.stride = 0 := Nat.mul_eq_zero.mpr hfirst
    omega
  · exact (hs hb).whole

theorem Shape.Whole.len {s : Shape} (hs : s.Whole) (hb : 0 < s.rowBytes) (hr : 0 < s.rows) :
    s.len = (s.rows - 1) * s.stride + s.rowBytes := by
  have hlast := hs.held (s.rows - 1) (by omega) (by omega)
  have hle : s.len ≤ (s.rows - 1) * s.stride + s.rowBytes := by
    unfold Shape.len
    rw [if_neg (by omega)]
    exact Nat.min_le_left ..
  omega

namespace View

variable {v w src dst : View} {f : Nat → Nat → UInt8} {n y c : Nat}

theorem lt_visits : y < v.visits ↔ y < v.shape.rows ∧ (v.shape.rowBytes = 0 → y < 2) := by
  unfold visits
  split <;> omega

theorem visits_congr (hs : w.shape = v.shape) : w.visits = v.visits := by
  unfold visits
  rw [hs]

theorem row_le_size (hv : v.shape.Whole) (hy : y < v.visits) :
    y * v.shape.stride + v.shape.rowBytes ≤ v.data.size := by
  rw [v.size_data]
  exact hv.held y (lt_visits.mp hy).1 (lt_visits.mp hy).2

def byte (v : View) (y c : Nat) : UInt8 := v.data.byte (y * v.shape.stride + c)

def line (v : View) (y : Nat) : List UInt8 := (List.range v.shape.rowBytes).map (v.byte y)

theorem byte_overwrite (v : View) (start : Nat) (row : List UInt8) (y c : Nat) :
    (v.overwrite start row).byte y c = (v.data.put start row).byte (y * v.shape.stride + c) := rfl

@[simp] theorem length_line (v : View) (y : Nat) : (v.line y).length = v.shape.rowBytes := by
  simp [line]

theorem start?_of_visited (hv : v.shape.Whole) (hy : y < v.visits) :
    v.start? y = some (y * v.shape.stride) := by
  unfold start?
  rw [if_pos ⟨(lt_visits.mp hy).1, row_le_size hv hy⟩]

theorem row?_of_visited (hv : v.shape.Whole) (hy : y < v.visits) : v.row? y = some (v.line y) := by
  unfold row?
  rw [start?_of_visited hv hy, Option.map_some, Bytes.toList_window (row_le_size hv hy)]
  rfl

theorem setRow?_of_visited (hv : v.shape.Whole) (hy : y < v.visits) {row : List UInt8}
    (hr : row.length = v.shape.rowBytes) :
    v.setRow? y row = some (v.overwrite (y * v.shape.stride) row) := by
  unfold setRow?
  rw [if_pos hr, start?_of_visited hv hy, Option.map_some]

theorem row?_of_lt (hv : v.shape.Regular) (hy : y < v.shape.rows) : v.row? y = some (v.line y) :=
  row?_of_visited hv.whole (visits_of_pos hv.rowBytes_pos ▸ hy)

theorem visitedRows_of_whole (hv : v.shape.Whole) :
    v.visitedRows = .ok ((List.range v.visits).map v.line) := by
  unfold visitedRows
  have hall : ∀ l : List Nat, (∀ y ∈ l, y < v.visits) →
      l.mapM (fun y => Stop.ofOption (v.row? y)) = .ok (l.map v.line) := by
    intro l hl
    induction l with
    | nil => rfl
    | cons y l ih =>
      rw [List.mapM_cons, row?_of_visited hv (hl y List.mem_cons_self),
        ih fun z hz => hl z (List.mem_cons_of_mem y hz)]
      rfl
  exact hall _ fun y hy => List.mem_range.mp hy

/-- Rows that are not gone through have no bytes, and look like those that are. -/
theorem rows_of_whole (hv : v.shape.Whole) :
    v.rows = .ok ((List.range v.shape.rows).map v.line) := by
  unfold rows
  rw [visitedRows_of_whole hv]
  have hle : v.visits ≤ v.shape.rows := by
    unfold visits
    split <;> omega
  have hrest : List.replicate (v.shape.rows - v.visits) ([] : List UInt8) =
      ((List.range (v.shape.rows - v.visits)).map (v.visits + ·)).map v.line := by
    unfold visits
    split
    · rename_i hb
      refine (List.eq_replicate_iff.mpr ⟨by simp, fun row hrow => ?_⟩).symm
      obtain ⟨y, -, rfl⟩ := List.mem_map.mp hrow
      exact List.eq_nil_of_length_eq_zero ((length_line v _).trans hb)
    · rw [Nat.sub_self]
      rfl
  simp only [bind, Except.bind, pure, Except.pure]
  rw [hrest, ← List.map_append, ← List.range_add, Nat.add_sub_cancel' hle]

/-! ### Painting -/

structure Painted (n : Nat) (f : Nat → Nat → UInt8) (v w : View) : Prop where
  shape : w.shape = v.shape
  byte : ∀ y c, c < v.shape.stride →
    w.byte y c = if y < n ∧ c < v.shape.rowBytes then f y c else v.byte y c

theorem Painted.refl (f : Nat → Nat → UInt8) (v : View) : Painted 0 f v v :=
  ⟨rfl, fun y c _ => by simp⟩

theorem byte_overwrite_row (hv : v.shape.Whole) (hn : n < v.visits) {row : List UInt8}
    (hr : row.length = v.shape.rowBytes) (hc : c < v.shape.stride) :
    (v.overwrite (n * v.shape.stride) row).byte y c =
      if y = n ∧ c < v.shape.rowBytes then row[c]?.getD 0 else v.byte y c := by
  have hin := row_le_size hv hn
  have hrow : (n * v.shape.stride ≤ y * v.shape.stride + c ∧
      y * v.shape.stride + c < n * v.shape.stride + v.shape.rowBytes) ↔
        y = n ∧ c < v.shape.rowBytes := mem_row hc hv.covers
  rw [byte_overwrite, Bytes.byte_put, hr]
  by_cases hy : y = n ∧ c < v.shape.rowBytes
  · obtain ⟨rfl, hcb⟩ := hy
    have hidx : y * v.shape.stride + c - y * v.shape.stride = c := by omega
    rw [if_pos (by omega), if_pos ⟨rfl, hcb⟩, hidx]
  · rw [if_neg (fun h => hy (hrow.mp ⟨h.1, h.2.1⟩)), if_neg hy]
    rfl

theorem Painted.succ (hv : v.shape.Whole) (hp : Painted n f v w) (hn : n < v.visits) :
    Painted (n + 1) f v
      (w.overwrite (n * w.shape.stride) ((List.range w.shape.rowBytes).map (f n))) where
  shape := hp.shape
  byte := by
    intro y c hc
    rw [byte_overwrite_row (hp.shape ▸ hv) (visits_congr hp.shape ▸ hn) (by simp) (hp.shape ▸ hc),
      hp.byte y c hc, hp.shape]
    by_cases hy : y = n ∧ c < v.shape.rowBytes
    · rw [if_pos hy, if_pos (by omega), hy.1]
      simp [hy.2]
    · rw [if_neg hy]
      by_cases hlt : y < n ∧ c < v.shape.rowBytes
      · rw [if_pos hlt, if_pos (by omega)]
      · rw [if_neg hlt, if_neg (by omega)]

theorem Painted.all (hp : Painted v.visits f v w) : Painted v.shape.rows f v w where
  shape := hp.shape
  byte := by
    intro y c hc
    have hvisited : y < v.visits ∧ c < v.shape.rowBytes ↔ y < v.shape.rows ∧ c < v.shape.rowBytes := by
      rw [lt_visits]
      omega
    rw [hp.byte y c hc]
    simp only [hvisited]

theorem painted_foldlM (hv : v.shape.Whole) {step : View → Nat → Except Stop View}
    (hstep : ∀ w y, w.shape = v.shape → y < v.visits → step w y =
      .ok (w.overwrite (y * w.shape.stride) ((List.range w.shape.rowBytes).map (f y))))
    (hn : n ≤ v.visits) :
    ∃ w, (List.range n).foldlM step v = .ok w ∧ Painted n f v w := by
  induction n with
  | zero => exact ⟨v, rfl, Painted.refl f v⟩
  | succ n ih =>
    obtain ⟨w, hw, hp⟩ := ih (by omega)
    refine ⟨_, ?_, hp.succ hv (by omega)⟩
    rw [List.range_succ, List.foldlM_append, hw]
    simp only [bind, Except.bind, List.foldlM_cons, List.foldlM_nil]
    rw [hstep w n hp.shape (by omega)]
    rfl

/-! ### Rows in any order -/

def setRows? (rows : Nat → List UInt8) (v : View) (order : List Nat) : Option View :=
  order.foldlM (fun w y => w.setRow? y (rows y)) v

theorem map_range_row {row : List UInt8} {count : Nat} (h : row.length = count) :
    ((List.range count).map fun c => row[c]?.getD 0) = row := by
  subst h
  apply List.ext_getElem
  · simp
  · intro c hc hc'
    simp [hc']

structure SameRows (v w : View) : Prop where
  shape : w.shape = v.shape
  rows : ∀ y, w.row? y = v.row? y

theorem SameRows.of_byte (hs : w.shape = v.shape)
    (hb : ∀ y c, y < v.shape.rows → c < v.shape.rowBytes → w.byte y c = v.byte y c) :
    v.SameRows w where
  shape := hs
  rows := by
    intro y
    have hsize : w.data.size = v.data.size := by rw [w.size_data, v.size_data, hs]
    have hstart : w.start? y = v.start? y := by
      unfold start?
      rw [hs, hsize]
    unfold row?
    rw [hstart]
    by_cases hin : y < v.shape.rows ∧ y * v.shape.stride + v.shape.rowBytes ≤ v.data.size
    · have hfound : v.start? y = some (y * v.shape.stride) := if_pos hin
      rw [hfound, Option.map_some, Option.map_some, hs, Bytes.toList_window hin.2,
        Bytes.toList_window (hsize ▸ hin.2)]
      congr 1
      apply List.map_congr_left
      intro c hc
      have hbyte := hb y c hin.1 (List.mem_range.mp hc)
      unfold View.byte at hbyte
      rw [hs] at hbyte
      exact hbyte
    · have hmissing : v.start? y = none := if_neg hin
      rw [hmissing]
      rfl

end View

end Planar
