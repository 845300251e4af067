import Planar.Proofs.View
set_option autoImplicit false

/-!
Rows that are overwritten in any order. They lie apart, so that each of them ends with its own bytes and
every other byte stays.
-/

namespace Planar

variable {shape : Shape} {v w w' : View} {rows : Nat → List UInt8} {order order' : List Nat}
  {y i n : Nat}

namespace Shape

def InRow (s : Shape) (y i : Nat) : Prop := y * s.stride ≤ i ∧ i < y * s.stride + s.rowBytes

/-- Rows with bytes that a view holds. A single one may be longer than the stride. -/
structure Apart (s : Shape) : Prop where
  pos : 0 < s.rowBytes
  covers : 1 < s.rows → s.rowBytes ≤ s.stride
  held : ∀ y, y < s.rows → y * s.stride + s.rowBytes ≤ s.len

theorem Apart.whole (hs : shape.Apart) (hr : 1 < shape.rows) : shape.Whole :=
  ⟨hs.covers hr, fun y hy _ => hs.held y hy⟩

theorem Regular.apart (hs : shape.Regular) : shape.Apart :=
  ⟨hs.rowBytes_pos, fun _ => hs.covers, fun _ hy => hs.row_le_len hy⟩

theorem Apart.eq_of_inRow (hs : shape.Apart) (hy : y < shape.rows) (hn : n < shape.rows)
    (hi : shape.InRow y i) (hi' : shape.InRow n i) : y = n := by
  by_cases hr : 1 < shape.rows
  · have hc := hs.covers hr
    obtain ⟨hfrom, hto⟩ := hi
    have hcol : y * shape.stride + (i - y * shape.stride) = i := by omega
    rw [InRow, ← hcol] at hi'
    exact ((mem_row (by omega) hc).mp hi').1
  · omega

end Shape

theorem Bytes.ext_of_byte {a b : Bytes} (hs : a.size = b.size) (hb : ∀ i, a.byte i = b.byte i) :
    a = b := by
  apply Array.ext_getElem?
  intro i
  by_cases hi : i < a.size
  · exact Bytes.getElem?_eq_of_byte hi (hs ▸ hi) (hb i)
  · rw [Array.getElem?_eq_none (by omega), Array.getElem?_eq_none (by omega)]

namespace View

theorem start?_of_apart (hv : v.shape.Apart) (hy : y < v.shape.rows) :
    v.start? y = some (y * v.shape.stride) :=
  if_pos ⟨hy, v.size_data ▸ hv.held y hy⟩

theorem setRow?_of_apart (hv : v.shape.Apart) (hy : y < v.shape.rows) {row : List UInt8}
    (hr : row.length = v.shape.rowBytes) :
    v.setRow? y row = some (v.overwrite (y * v.shape.stride) row) := by
  unfold setRow?
  rw [if_pos hr, start?_of_apart hv hy, Option.map_some]

/-- The rows that the order tells have got new bytes, and all other bytes stay. -/
structure Rewrites (rows : Nat → List UInt8) (order : List Nat) (v w : View) : Prop where
  shape : w.shape = v.shape
  inside : ∀ y, y ∈ order → ∀ c, c < v.shape.rowBytes →
    w.data.byte (y * v.shape.stride + c) = (rows y)[c]?.getD 0
  outside : ∀ i, (∀ y, y ∈ order → ¬ v.shape.InRow y i) → w.data.byte i = v.data.byte i

theorem rewrites_overwrite (hv : v.shape.Apart) (hn : n < v.shape.rows)
    (hlen : (rows n).length = v.shape.rowBytes) :
    v.Rewrites rows [n] (v.overwrite (n * v.shape.stride) (rows n)) where
  shape := rfl
  inside := by
    intro y hy c hc
    obtain rfl := List.mem_singleton.mp hy
    have hin := v.size_data ▸ hv.held y hn
    have hcol : y * v.shape.stride + c - y * v.shape.stride = c := by omega
    change (Bytes.put ..).byte _ = _
    rw [Bytes.byte_put, if_pos (by omega), hcol]
  outside := by
    intro i hi
    have hother := hi n (List.mem_singleton_self n)
    change (Bytes.put ..).byte _ = _
    rw [Bytes.byte_put, if_neg]
    rintro ⟨hfrom, hto, -⟩
    exact hother ⟨hfrom, hlen ▸ hto⟩

theorem Rewrites.cons (hv : v.shape.Apart) (hn : n < v.shape.rows)
    (horder : ∀ y ∈ order, y < v.shape.rows) (hfirst : v.Rewrites rows [n] w)
    (hrest : w.Rewrites rows order w') : v.Rewrites rows (n :: order) w' where
  shape := hrest.shape.trans hfirst.shape
  inside := by
    intro y hy c hc
    have hrest' := hrest.inside
    rw [hfirst.shape] at hrest'
    by_cases hagain : y ∈ order
    · exact hrest' y hagain c hc
    · obtain rfl := (List.mem_cons.mp hy).resolve_right hagain
      rw [hrest.outside, hfirst.inside y (List.mem_singleton_self y) c hc]
      intro z hz hin
      rw [hfirst.shape] at hin
      have hrow : v.shape.InRow y (y * v.shape.stride + c) := ⟨by omega, by omega⟩
      exact hagain (hv.eq_of_inRow (horder z hz) hn hin hrow ▸ hz)
  outside := by
    intro i hi
    rw [hrest.outside i fun y hy => hfirst.shape ▸ hi y (List.mem_cons_of_mem n hy),
      hfirst.outside i fun y hy => List.mem_singleton.mp hy ▸ hi n List.mem_cons_self]

theorem exists_rewrites (rows : Nat → List UInt8) (order : List Nat) (hv : v.shape.Apart)
    (horder : ∀ y ∈ order, y < v.shape.rows ∧ (rows y).length = v.shape.rowBytes) :
    ∃ w, v.setRows? rows order = some w ∧ v.Rewrites rows order w := by
  induction order generalizing v with
  | nil => exact ⟨v, rfl, rfl, nofun, fun _ _ => rfl⟩
  | cons n order ih =>
    obtain ⟨⟨hn, hlen⟩, hrest⟩ := List.forall_mem_cons.mp horder
    obtain ⟨w, hrun, hw⟩ := ih (v := v.overwrite (n * v.shape.stride) (rows n)) hv hrest
    refine ⟨w, ?_, .cons hv hn (fun y hy => (hrest y hy).1) (rewrites_overwrite hv hn hlen) hw⟩
    unfold setRows? at hrun ⊢
    rw [List.foldlM_cons, setRow?_of_apart hv hn hlen]
    exact hrun

/-- The order does not show. -/
theorem Rewrites.unique (hw : v.Rewrites rows order w) (hw' : v.Rewrites rows order' w')
    (hsame : ∀ y, y ∈ order ↔ y ∈ order') : w = w' := by
  have hshape := hw.shape.trans hw'.shape.symm
  have hdata : w.data = w'.data := by
    apply Bytes.ext_of_byte
    · rw [w.size_data, w'.size_data, hshape]
    · intro i
      by_cases hin : ∃ y, y ∈ order ∧ v.shape.InRow y i
      · obtain ⟨y, hy, hfrom, hto⟩ := hin
        obtain ⟨c, rfl⟩ := Nat.exists_eq_add_of_le hfrom
        rw [hw.inside y hy c (by omega), hw'.inside y ((hsame y).mp hy) c (by omega)]
      · rw [hw.outside i fun y hy hi => hin ⟨y, hy, hi⟩,
          hw'.outside i fun y hy hi => hin ⟨y, (hsame y).mpr hy, hi⟩]
  cases w
  cases w'
  cases hshape
  cases hdata
  rfl

theorem Rewrites.painted (hv : v.shape.Regular) (hw : v.Rewrites rows order w)
    (horder : ∀ y, y ∈ order ↔ y < v.shape.rows) :
    Painted v.shape.rows (fun y c => (rows y)[c]?.getD 0) v w where
  shape := hw.shape
  byte := by
    intro y c hc
    unfold View.byte
    rw [hw.shape]
    by_cases hy : y < v.shape.rows ∧ c < v.shape.rowBytes
    · rw [if_pos hy, hw.inside y ((horder y).mpr hy.1) c hy.2]
    · rw [if_neg hy, hw.outside]
      intro n hn hin
      obtain ⟨rfl, hcol⟩ := (mem_row hc hv.covers).mp hin
      exact hy ⟨(horder y).mp hn, hcol⟩

end View

end Planar
