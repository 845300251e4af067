import Planar.Buffer.Packed
import Planar.Proofs.View
set_option autoImplicit false

/-!
The row kernels. Each paints all rows of a view that holds the rows it goes through, and crashes on
one whose second row, without bytes, would begin behind its end.
-/

namespace Planar.View

variable {v w src dst : View} {y : Nat}

/-! ### Copied rows -/

structure Alike (src dst : View) : Prop where
  rows : src.shape.rows = dst.shape.rows
  rowBytes : src.shape.rowBytes = dst.shape.rowBytes

theorem Alike.visits (ha : Alike src dst) : src.visits = dst.visits := by
  unfold View.visits
  rw [ha.rows, ha.rowBytes]

theorem copyRow_of_visited (hs : src.shape.Whole) (hw : w.shape.Whole) (ha : Alike src w)
    (hy : y < w.visits) : copyRow src w y =
      .ok (w.overwrite (y * w.shape.stride) ((List.range w.shape.rowBytes).map (src.byte y))) := by
  unfold copyRow
  rw [row?_of_visited hs (ha.visits ▸ hy)]
  simp only [Stop.ofOption, bind, Except.bind]
  rw [setRow?_of_visited hw hy ((length_line src y).trans ha.rowBytes), line, ha.rowBytes]

theorem pieceStart?_of_visited (hv : v.shape.Whole) (hy : y < v.visits) :
    v.pieceStart? y = v.start? y := by
  -- enough rows for sharing lie apart, so that a piece has its row in full
  have hin := row_le_size hv hy
  have hc := hv.covers
  rw [start?_of_visited hv hy]
  unfold pieceStart?
  simp only
  rw [if_pos (by omega)]

theorem copyPiece_eq_copyRow (hs : src.pieceStart? y = src.start? y)
    (hw : w.pieceStart? y = w.start? y) : copyPiece src w y = copyRow src w y := by
  unfold copyPiece copyRow pieceRow? row? setPieceRow? setRow?
  rw [hs, hw]

theorem fillPiece_eq_fillRow {pattern : List UInt8} (hw : w.pieceStart? y = w.start? y) :
    fillPiece pattern w y = fillRow pattern w y := by
  unfold fillPiece fillRow setPieceRow? setRow?
  rw [hw]

theorem copyPiece_of_visited (hs : src.shape.Whole) (hw : w.shape.Whole) (ha : Alike src w)
    (hy : y < w.visits) : copyPiece src w y = copyRow src w y :=
  copyPiece_eq_copyRow (pieceStart?_of_visited hs (ha.visits ▸ hy)) (pieceStart?_of_visited hw hy)

theorem pieces_eq_visits (hv : v.shape.Whole) (hp : 0 < v.shape.rowBytes) (hr : 0 < v.shape.rows) :
    v.pieces = v.visits := by
  have hc := hv.covers
  unfold pieces
  rw [v.size_data, hv.len hp hr, visits_of_pos hp]
  have hsum : (v.shape.rows - 1) * v.shape.stride + v.shape.rowBytes + v.shape.stride - 1 =
      (v.shape.rowBytes - 1) + v.shape.rows * v.shape.stride := by
    obtain ⟨n, hn⟩ : ∃ n, v.shape.rows = n + 1 := ⟨v.shape.rows - 1, by omega⟩
    rw [hn, Nat.add_sub_cancel, Nat.succ_mul]
    omega
  rw [hsum, Nat.add_mul_div_right _ _ (by omega), Nat.div_eq_of_lt (by omega), Nat.zero_add]

theorem many_of_worthSharing {rows rowBytes : Nat} {strides : List Nat}
    (h : worthSharing rows rowBytes strides = true) : 1 < rows := by
  simp only [worthSharing, Bool.and_eq_true, decide_eq_true_eq] at h
  exact h.1.1

theorem pos_of_worthSharing {rows rowBytes : Nat} {strides : List Nat}
    (h : worthSharing rows rowBytes strides = true) : 0 < rows ∧ 0 < rowBytes := by
  simp only [worthSharing, Bool.and_eq_true, decide_eq_true_eq] at h
  refine ⟨by omega, Nat.pos_of_ne_zero fun hb => ?_⟩
  have hmany := h.1.2
  rw [hb, Nat.mul_zero] at hmany
  exact absurd hmany (by decide)

theorem copyRows_of_alike (hs : src.shape.Whole) (hd : dst.shape.Whole) (ha : Alike src dst) :
    ∃ w, copyRows src dst = .ok w ∧ Painted dst.shape.rows src.byte dst w := by
  have hrow : ∀ w y, w.shape = dst.shape → y < dst.visits → copyRow src w y =
      .ok (w.overwrite (y * w.shape.stride) ((List.range w.shape.rowBytes).map (src.byte y))) := by
    intro w y hw hy
    exact copyRow_of_visited hs (hw ▸ hd) ⟨hw ▸ ha.rows, hw ▸ ha.rowBytes⟩ (visits_congr hw ▸ hy)
  have hpiece : ∀ w y, w.shape = dst.shape → y < dst.visits → copyPiece src w y =
      .ok (w.overwrite (y * w.shape.stride) ((List.range w.shape.rowBytes).map (src.byte y))) := by
    intro w y hw hy
    rw [copyPiece_of_visited hs (hw ▸ hd) ⟨hw ▸ ha.rows, hw ▸ ha.rowBytes⟩ (visits_congr hw ▸ hy)]
    exact hrow w y hw hy
  unfold copyRows
  rw [if_neg (by simp [ha.rows, ha.rowBytes])]
  split
  · rename_i hshare
    obtain ⟨hrows, hbytes⟩ := pos_of_worthSharing hshare
    unfold copyPieces
    rw [pieces_eq_visits hs hbytes hrows, pieces_eq_visits hd (ha.rowBytes ▸ hbytes) (ha.rows ▸ hrows),
      ha.visits, Nat.min_self]
    obtain ⟨w, hw, hp⟩ := painted_foldlM hd hpiece (Nat.le_refl _)
    exact ⟨w, hw, hp.all⟩
  · unfold copyRowByRow
    rw [ha.visits]
    obtain ⟨w, hw, hp⟩ := painted_foldlM hd hrow (Nat.le_refl _)
    exact ⟨w, hw, hp.all⟩

/-! ### Patterns -/

theorem getElem?_tiles (pattern : List UInt8) (count i : Nat) :
    (List.replicate count pattern).flatten[i]? =
      if i < count * pattern.length then pattern[i % pattern.length]? else none := by
  induction count generalizing i with
  | zero => simp
  | succ count ih =>
    rw [List.replicate_succ, List.flatten_cons, List.getElem?_append]
    split
    · rename_i hi
      rw [if_pos (by rw [Nat.succ_mul]; omega), Nat.mod_eq_of_lt hi]
    · rename_i hi
      rw [ih, ← Nat.mod_eq_sub_mod (by omega), Nat.succ_mul]
      congr 1
      exact propext (by omega)

theorem patternRow_eq {pattern : List UInt8} {rowBytes : Nat} (ht : rowBytes % pattern.length = 0) :
    patternRow rowBytes pattern =
      (List.range rowBytes).map fun c => pattern[c % pattern.length]?.getD 0 := by
  have hcount : rowBytes / pattern.length * pattern.length = rowBytes :=
    Nat.div_mul_cancel (Nat.dvd_of_mod_eq_zero ht)
  apply List.ext_getElem?
  intro i
  rw [patternRow, getElem?_tiles, hcount, List.getElem?_map]
  split
  · rename_i hi
    have hpos : 0 < pattern.length := by
      refine Nat.pos_of_ne_zero fun hz => ?_
      rw [hz, Nat.mod_zero] at ht
      omega
    rw [List.getElem?_range hi, Option.map_some, List.getElem?_eq_getElem (Nat.mod_lt i hpos),
      Option.getD_some]
  · rename_i hi
    rw [List.getElem?_eq_none (by simpa using hi)]
    rfl

theorem fillRows_of_tiles (hv : v.shape.Whole) {pattern : List UInt8} (hne : pattern ≠ [])
    (ht : v.shape.rowBytes % pattern.length = 0) :
    ∃ w, fillRows v pattern = .ok w ∧
      Painted v.shape.rows (fun _ c => pattern[c % pattern.length]?.getD 0) v w := by
  have hrow : ∀ w y, w.shape = v.shape → y < v.visits → fillRow pattern w y =
      .ok (w.overwrite (y * w.shape.stride)
        ((List.range w.shape.rowBytes).map fun c => pattern[c % pattern.length]?.getD 0)) := by
    intro w y hw hy
    unfold fillRow
    rw [hw, patternRow_eq ht, setRow?_of_visited (hw ▸ hv) (visits_congr hw ▸ hy) (by simp [hw]), hw]
    rfl
  have hpiece : ∀ w y, w.shape = v.shape → y < v.visits → fillPiece pattern w y =
      fillRow pattern w y := by
    intro w y hw hy
    exact fillPiece_eq_fillRow (pieceStart?_of_visited (hw ▸ hv) (visits_congr hw ▸ hy))
  unfold fillRows
  rw [if_neg (by simp [hne, ht])]
  split
  · rename_i hshare
    obtain ⟨hrows, hbytes⟩ := pos_of_worthSharing hshare
    unfold fillPieces
    rw [pieces_eq_visits hv hbytes hrows]
    obtain ⟨w, hw, hp⟩ := painted_foldlM hv
      (fun w y hw hy => (hpiece w y hw hy).trans (hrow w y hw hy)) (Nat.le_refl _)
    exact ⟨w, hw, hp.all⟩
  · unfold fillRowByRow
    obtain ⟨w, hw, hp⟩ := painted_foldlM hv hrow (Nat.le_refl _)
    exact ⟨w, hw, hp.all⟩

/-! ### Packed rows -/

def packedByte (bytes : List UInt8) (rowBytes y c : Nat) : UInt8 :=
  bytes[y * rowBytes + c]?.getD 0

theorem take_drop_eq {bytes : List UInt8} {start count : Nat} (h : start + count ≤ bytes.length) :
    (bytes.drop start).take count = (List.range count).map fun i => bytes[start + i]?.getD 0 := by
  apply List.ext_getElem?
  intro i
  by_cases hi : i < count
  · rw [List.getElem?_take_of_lt hi, List.getElem?_drop, List.getElem?_map, List.getElem?_range hi,
      Option.map_some, List.getElem?_eq_getElem (by omega), Option.getD_some]
  · rw [List.getElem?_eq_none (by rw [List.length_take]; omega),
      List.getElem?_eq_none (by rw [List.length_map, List.length_range]; omega)]

theorem unpackRow_of_visited (hw : w.shape.Whole) (hy : y < w.visits) {bytes : List UInt8}
    (hb : (y + 1) * w.shape.rowBytes ≤ bytes.length) :
    unpackRow (w, bytes.drop (y * w.shape.rowBytes)) y =
      .ok (w.overwrite (y * w.shape.stride)
        ((List.range w.shape.rowBytes).map (packedByte bytes w.shape.rowBytes y)),
          bytes.drop ((y + 1) * w.shape.rowBytes)) := by
  rw [Nat.succ_mul] at hb ⊢
  have hrow : (bytes.drop (y * w.shape.rowBytes)).take w.shape.rowBytes =
      (List.range w.shape.rowBytes).map (packedByte bytes w.shape.rowBytes y) :=
    take_drop_eq hb
  unfold unpackRow
  simp only [hrow, bind, Except.bind]
  rw [setRow?_of_visited hw hy (by simp), List.drop_drop]
  rfl

theorem unpackRows_of_le (hv : v.shape.Whole) {bytes : List UInt8}
    (hb : v.shape.rows * v.shape.rowBytes ≤ bytes.length) :
    ∃ w, unpackRows v bytes = .ok (w, bytes.drop (v.shape.rows * v.shape.rowBytes)) ∧
      Painted v.shape.rows (packedByte bytes v.shape.rowBytes) v w := by
  have hall : ∀ n, n ≤ v.visits →
      ∃ w, (List.range n).foldlM unpackRow (v, bytes) = .ok (w, bytes.drop (n * v.shape.rowBytes)) ∧
        Painted n (packedByte bytes v.shape.rowBytes) v w := by
    intro n hn
    induction n with
    | zero => exact ⟨v, by simp [pure, Except.pure], Painted.refl _ v⟩
    | succ n ih =>
      obtain ⟨w, hw, hp⟩ := ih (by omega)
      have hle := Nat.mul_le_mul_right v.shape.rowBytes
        (show n + 1 ≤ v.shape.rows from (lt_visits.mp hn).1)
      have hstep := unpackRow_of_visited (hp.shape ▸ hv) (visits_congr hp.shape ▸ hn)
        (show (n + 1) * w.shape.rowBytes ≤ bytes.length by rw [hp.shape]; omega)
      refine ⟨_, ?_, hp.succ hv (by omega)⟩
      rw [List.range_succ, List.foldlM_append, hw]
      simp only [bind, Except.bind, List.foldlM_cons, List.foldlM_nil]
      rw [hp.shape] at hstep ⊢
      rw [hstep]
      rfl
  have hbytes : v.visits * v.shape.rowBytes = v.shape.rows * v.shape.rowBytes := by
    unfold visits
    split
    · rename_i hz
      rw [hz, Nat.mul_zero, Nat.mul_zero]
    · rfl
  obtain ⟨w, hw, hp⟩ := hall _ (Nat.le_refl _)
  exact ⟨w, hbytes ▸ hw, hp.all⟩

/-! ### Rows out of reach -/

theorem start?_zero (hb : v.shape.rowBytes = 0) (hr : 0 < v.shape.rows) : v.start? 0 = some 0 := by
  unfold start?
  rw [Nat.zero_mul, hb, if_pos ⟨hr, Nat.zero_le _⟩]

theorem row?_zero (hb : v.shape.rowBytes = 0) (hr : 0 < v.shape.rows) : v.row? 0 = some [] := by
  unfold row?
  rw [start?_zero hb hr, Option.map_some, hb]
  simp [Bytes.window]

theorem setRow?_zero (hb : v.shape.rowBytes = 0) (hr : 0 < v.shape.rows) :
    v.setRow? 0 [] = some (v.overwrite 0 []) := by
  unfold setRow?
  rw [if_pos (by rw [hb]; rfl), start?_zero hb hr]
  rfl

theorem start?_one_of_torn (ht : v.shape.Torn) : v.start? 1 = none := by
  unfold start?
  rw [v.size_data, Shape.len_of_empty ht.1, if_neg]
  have := ht.2.2
  omega

theorem row?_one_of_torn (ht : v.shape.Torn) : v.row? 1 = none := by
  unfold row?
  rw [start?_one_of_torn ht]
  rfl

theorem setRow?_one_of_torn (ht : v.shape.Torn) (row : List UInt8) : v.setRow? 1 row = none := by
  unfold setRow?
  rw [start?_one_of_torn ht]
  split <;> rfl

theorem visits_of_empty (hb : v.shape.rowBytes = 0) (hr : 1 < v.shape.rows) : v.visits = 2 := by
  unfold visits
  rw [if_pos hb]
  omega

theorem visitedRows_of_torn (ht : v.shape.Torn) : v.visitedRows = .error .crash := by
  have hrows : List.range 2 = [0, 1] := rfl
  unfold visitedRows
  rw [visits_of_empty ht.1 ht.2.1, hrows, List.mapM_cons, List.mapM_cons,
    row?_zero ht.1 (Nat.zero_lt_of_lt ht.2.1), row?_one_of_torn ht]
  rfl

theorem foldlM_two_of_crash {β : Type} {step : β → Nat → Except Stop β} {b c : β}
    (hfirst : step b 0 = .ok c) (hsecond : step c 1 = .error .crash) :
    (List.range 2).foldlM step b = .error .crash := by
  have hrows : List.range 2 = [0, 1] := rfl
  rw [hrows, List.foldlM_cons, hfirst]
  simp only [bind, Except.bind, List.foldlM_cons, hsecond]

theorem not_worthSharing {rows : Nat} {strides : List Nat} :
    worthSharing rows 0 strides = false :=
  Bool.eq_false_iff.mpr fun h => absurd (pos_of_worthSharing h).2 (Nat.lt_irrefl 0)

theorem fillRows_of_torn (ht : v.shape.Torn) {pattern : List UInt8} (hne : pattern ≠ []) :
    fillRows v pattern = .error .crash := by
  have hrow : patternRow v.shape.rowBytes pattern = [] := by
    rw [ht.1, patternRow, Nat.zero_div]
    rfl
  unfold fillRows
  rw [if_neg (by simp [hne, ht.1]), ht.1, not_worthSharing]
  unfold fillRowByRow
  rw [visits_of_empty ht.1 ht.2.1]
  refine foldlM_two_of_crash (c := v.overwrite 0 []) ?_ ?_
  · unfold fillRow
    rw [hrow, setRow?_zero ht.1 (Nat.zero_lt_of_lt ht.2.1)]
    rfl
  · unfold fillRow
    rw [setRow?_one_of_torn (v := v.overwrite 0 []) ht]
    rfl

theorem unpackRows_of_torn (ht : v.shape.Torn) (bytes : List UInt8) :
    unpackRows v bytes = .error .crash := by
  unfold unpackRows
  rw [visits_of_empty ht.1 ht.2.1]
  refine foldlM_two_of_crash (c := (v.overwrite 0 [], bytes)) ?_ ?_
  · unfold unpackRow
    simp only [ht.1, List.take_zero, List.drop_zero, setRow?_zero ht.1 (Nat.zero_lt_of_lt ht.2.1)]
    rfl
  · unfold unpackRow
    simp only [setRow?_one_of_torn (v := v.overwrite 0 []) ht]
    rfl

theorem copyRows_of_torn (ha : Alike src dst) (ht : src.shape.Torn ∨ dst.shape.Torn) :
    copyRows src dst = .error .crash := by
  obtain ⟨hb, hr⟩ : src.shape.rowBytes = 0 ∧ 1 < src.shape.rows := by
    have hrows := ha.rows
    have hbytes := ha.rowBytes
    unfold Shape.Torn at ht
    omega
  have hb' : dst.shape.rowBytes = 0 := ha.rowBytes ▸ hb
  have hr' : 1 < dst.shape.rows := ha.rows ▸ hr
  unfold copyRows
  rw [if_neg (by simp [ha.rows, ha.rowBytes]), hb, not_worthSharing]
  unfold copyRowByRow
  rw [visits_of_empty hb hr]
  refine foldlM_two_of_crash (c := dst.overwrite 0 []) ?_ ?_
  · unfold copyRow
    rw [row?_zero hb (Nat.zero_lt_of_lt hr)]
    simp only [Stop.ofOption, bind, Except.bind]
    rw [setRow?_zero hb' (Nat.zero_lt_of_lt hr')]
  · unfold copyRow
    rcases ht with ht | ht
    · rw [row?_one_of_torn ht]
      rfl
    · cases hrow : src.row? 1 with
      | none => rfl
      | some row =>
        simp only [Stop.ofOption, bind, Except.bind]
        rw [setRow?_one_of_torn (v := dst.overwrite 0 []) ht]

end Planar.View
