import Planar.Proofs.Image
import Planar.Proofs.Resize
set_option autoImplicit false

/-!
What a crop or a growth of a packed image should be: every unit of the result is a unit of the
image, or zeros. A window that moves and an overlap that is copied both show it.
-/

namespace Planar

namespace PlaneFormat

/-- The unit of that row and column, zeros if the plane has none. -/
def unitAt (f : PlaneFormat) (size : Size) (bytes : List UInt8) (y x : Int) : List UInt8 :=
  if 0 ≤ y ∧ y < f.rows size.vsize ∧ 0 ≤ x ∧ x < f.columns size.macropixel size.hsize then
    (bytes.drop ((y.toNat * f.columns size.macropixel size.hsize + x.toNat) *
      f.macropixelSize)).take f.macropixelSize
  else List.replicate f.macropixelSize 0

def crop (f : PlaneFormat) (q : ResizeRequest) (bytes : List UInt8) : List UInt8 :=
  (List.range (f.rows q.newVsize)).flatMap fun (y : Nat) =>
    (List.range (f.columns q.size.macropixel q.newHsize)).flatMap fun (x : Nat) =>
      f.unitAt q.size bytes (y + q.vskip / f.vsub) (x + q.hskip / (f.hsub * q.size.macropixel : Nat))

end PlaneFormat

/-- The planes of the new picture one after another, each from its bytes of the old one. -/
def cropPlanes (q : ResizeRequest) : List PlaneFormat → List UInt8 → List UInt8
  | [], _ => []
  | f :: fs, bytes => f.crop q bytes ++ cropPlanes q fs (bytes.drop (f.area q.size))

/-! ### Units by their bytes -/

namespace PlaneFormat

variable {f : PlaneFormat} {q : ResizeRequest} {size : Size} {bytes : List UInt8}

def moved (f : PlaneFormat) (q : ResizeRequest) (inner : Nat → Nat → UInt8) (y c : Nat) : UInt8 :=
  let row : Int := y + q.vskip / f.vsub
  let column : Int := c + q.hskip / (f.hsub * q.size.macropixel : Nat) * f.macropixelSize
  if (0 ≤ row ∧ row < f.rows q.size.vsize) ∧
      0 ≤ column ∧ column < f.width q.size.macropixel q.size.hsize then
    inner row.toNat column.toNat
  else 0

theorem mem_units {s j count : Nat} (hj : j < s) (x : Int) :
    (0 ≤ x * s + j ∧ x * s + j < (count * s : Nat)) ↔ 0 ≤ x ∧ x < count := by
  rw [Int.natCast_mul]
  constructor
  · intro hgiven
    obtain ⟨hlow, hhigh⟩ := hgiven
    refine ⟨Int.not_lt.mp fun hx => ?_, Int.not_le.mp fun hx => ?_⟩
    · have := Int.mul_le_mul_of_nonneg_right (show x ≤ -1 by omega) (Int.natCast_nonneg s)
      omega
    · have := Int.mul_le_mul_of_nonneg_right hx (Int.natCast_nonneg s)
      omega
  · intro hgiven
    obtain ⟨hlow, hhigh⟩ := hgiven
    have h₁ := Int.mul_le_mul_of_nonneg_right hlow (Int.natCast_nonneg s)
    have h₂ := Int.mul_le_mul_of_nonneg_right (show x + 1 ≤ count by omega) (Int.natCast_nonneg s)
    rw [Int.add_mul] at h₂
    omega

theorem take_unit {rows columns s x y : Nat} {bytes : List UInt8}
    (hb : rows * (columns * s) ≤ bytes.length) (hy : y < rows) (hx : x < columns) :
    (bytes.drop ((y * columns + x) * s)).take s =
      (List.range s).map fun j => View.packedByte bytes (columns * s) y (x * s + j) := by
  have hlast : y * columns + x + 1 ≤ rows * columns := by
    have := Nat.mul_le_mul_right columns (Nat.succ_le_of_lt hy)
    rw [Nat.succ_mul] at this
    omega
  have hend := Nat.mul_le_mul_right s hlast
  rw [Nat.succ_mul, Nat.mul_assoc rows] at hend
  rw [View.take_drop_eq (Nat.le_trans hend hb)]
  apply List.map_congr_left
  intro j _
  rw [View.packedByte, Nat.add_mul, Nat.mul_assoc, Nat.add_assoc]

theorem unitAt_eq (hb : f.area q.size ≤ bytes.length) (y x : Nat) :
    f.unitAt q.size bytes (y + q.vskip / f.vsub)
        (x + q.hskip / (f.hsub * q.size.macropixel : Nat)) =
      (List.range f.macropixelSize).map fun j =>
        f.moved q (View.packedByte bytes (f.width q.size.macropixel q.size.hsize)) y
          (x * f.macropixelSize + j) := by
  have hcolumn : ∀ j : Nat, ((x * f.macropixelSize + j : Nat) : Int) +
      q.hskip / (f.hsub * q.size.macropixel : Nat) * f.macropixelSize =
        (x + q.hskip / (f.hsub * q.size.macropixel : Nat)) * f.macropixelSize + j := by
    intro j
    rw [Int.add_mul, Int.natCast_add, Int.natCast_mul]
    omega
  -- a byte has moved into the plane if its unit has
  have hin : ∀ j, j < f.macropixelSize →
      f.moved q (View.packedByte bytes (f.width q.size.macropixel q.size.hsize)) y
          (x * f.macropixelSize + j) =
        if 0 ≤ (y : Int) + q.vskip / f.vsub ∧ (y : Int) + q.vskip / f.vsub < f.rows q.size.vsize ∧
            0 ≤ (x : Int) + q.hskip / (f.hsub * q.size.macropixel : Nat) ∧
              (x : Int) + q.hskip / (f.hsub * q.size.macropixel : Nat) <
                f.columns q.size.macropixel q.size.hsize then
          View.packedByte bytes (f.width q.size.macropixel q.size.hsize)
            (y + q.vskip / f.vsub).toNat
              ((x + q.hskip / (f.hsub * q.size.macropixel : Nat)) * f.macropixelSize + j).toNat
        else 0 := by
    intro j hj
    unfold moved
    simp only [hcolumn, width, mem_units hj, and_assoc]
  generalize (y : Int) + q.vskip / f.vsub = row at hin ⊢
  generalize (x : Int) + q.hskip / (f.hsub * q.size.macropixel : Nat) = column at hin ⊢
  rw [List.map_congr_left fun j hj => hin j (List.mem_range.mp hj)]
  unfold unitAt
  by_cases hunit : 0 ≤ row ∧ row < f.rows q.size.vsize ∧ 0 ≤ column ∧
      column < f.columns q.size.macropixel q.size.hsize
  · simp only [if_pos hunit]
    obtain ⟨hrow, hrows, hcol, hcols⟩ := hunit
    obtain ⟨y', rfl⟩ := Int.eq_ofNat_of_zero_le hrow
    obtain ⟨x', rfl⟩ := Int.eq_ofNat_of_zero_le hcol
    simp only [Int.toNat_natCast]
    rw [take_unit hb (by omega) (by omega)]
    apply List.map_congr_left
    intro j _
    rw [← Int.natCast_mul, ← Int.natCast_add, Int.toNat_natCast]
    rfl
  · simp only [if_neg hunit]
    symm
    rw [List.eq_replicate_iff]
    simp

theorem crop_eq (hb : f.area q.size ≤ bytes.length) :
    f.crop q bytes = ((List.range (f.rows q.newVsize)).map fun y =>
      (List.range (f.width q.size.macropixel q.newHsize)).map
        (f.moved q (View.packedByte bytes (f.width q.size.macropixel q.size.hsize)) y)).flatten := by
  have hrow : ∀ y n : Nat, (List.range n).flatMap (fun (x : Nat) =>
      f.unitAt q.size bytes (y + q.vskip / f.vsub)
        (x + q.hskip / (f.hsub * q.size.macropixel : Nat))) =
      (List.range (n * f.macropixelSize)).map
        (f.moved q (View.packedByte bytes (f.width q.size.macropixel q.size.hsize)) y) := by
    intro y n
    induction n with
    | zero => simp
    | succ n ih =>
      rw [List.range_succ, List.flatMap_append, ih, Nat.succ_mul, List.range_add, List.map_append,
        List.map_map]
      simp only [List.flatMap_cons, List.flatMap_nil, List.append_nil]
      rw [unitAt_eq hb]
      rfl
  unfold crop
  rw [List.flatMap]
  congr 1
  apply List.map_congr_left
  intro y _
  exact hrow y _

/-! ### Regions in units -/

structure OnUnits (f : PlaneFormat) (macropixel : Nat) (r : Region) : Prop where
  hoffset : f.hsub * macropixel ∣ r.hoffset
  voffset : f.vsub ∣ r.voffset
  hsize : f.hsub * macropixel ∣ r.hsize
  vsize : f.vsub ∣ r.vsize

theorem rows_add (f : PlaneFormat) {a : Nat} (h : f.vsub ∣ a) (b : Nat) :
    f.rows (a + b) = f.rows a + f.rows b := Grid.add_div_of_dvd h b

theorem width_add (f : PlaneFormat) {macropixel a : Nat} (h : f.hsub * macropixel ∣ a) (b : Nat) :
    f.width macropixel (a + b) = f.width macropixel a + f.width macropixel b := by
  rw [width, columns, Grid.add_div_of_dvd h, Nat.add_mul]
  rfl

theorem moved_eq {b : Block} {inner : Nat → Nat → UInt8} {y c y' c' : Nat}
    (hrows : b.rows = f.rows q.size.vsize) (hwidth : b.width = f.width q.size.macropixel q.size.hsize)
    (hy : (y : Int) + q.vskip / f.vsub = y' - b.top)
    (hc : (c : Int) + q.hskip / (f.hsub * q.size.macropixel : Nat) * f.macropixelSize =
      c' - b.left) :
    b.paint inner (fun _ _ => 0) y' c' = f.moved q inner y c := by
  unfold Block.paint moved
  simp only [hy, hc]
  by_cases hin : b.Has y' c'
  · obtain ⟨htop, hbottom, hleft, hright⟩ := hin
    rw [if_pos ⟨htop, hbottom, hleft, hright⟩, if_pos (by omega)]
    congr 1 <;> omega
  · rw [if_neg hin, if_neg]
    intro hgiven
    obtain ⟨⟨hrow, hrow'⟩, hcol, hcol'⟩ := hgiven
    exact hin ⟨by omega, by omega, by omega, by omega⟩

theorem paint_of_window {macropixel : Nat} {old new : Region} {inner : Nat → Nat → UInt8}
    (hs : q.size = ⟨old.hsize, old.vsize, macropixel⟩) (ho : f.OnUnits macropixel old)
    (hh : (new.hoffset : Int) = old.hoffset + q.hskip)
    (hv : (new.voffset : Int) = old.voffset + q.vskip) (y c : Nat) :
    (f.block macropixel old).paint inner (fun _ _ => 0) (f.rows new.voffset + y)
      (f.width macropixel new.hoffset + c) = f.moved q inner y c := by
  refine moved_eq (by rw [hs]; rfl) (by rw [hs]; rfl) ?_ ?_
  · rw [Grid.div_sub_div ho.voffset (b := new.voffset) (by omega)]
    simp only [block, rows]
    omega
  · rw [hs, Grid.div_sub_div ho.hoffset (b := new.hoffset) (by omega), Int.sub_mul]
    simp only [block, width, columns, Int.natCast_add, Int.natCast_mul]
    omega

theorem shared_rows (hk : (f.vsub : Int) ∣ q.vskip) (hn : f.vsub ∣ q.newVsize)
    (ht : f.vsub ∣ q.size.vsize) {y : Nat} (hy : y < f.rows q.newVsize) :
    (f.rows q.overlap.dst.voffset ≤ y ∧
        y < f.rows q.overlap.dst.voffset + f.rows q.overlap.dst.vsize) ↔
      0 ≤ (y : Int) + q.vskip / f.vsub ∧ (y : Int) + q.vskip / f.vsub < f.rows q.size.vsize := by
  have hy' : y < q.newVsize / f.vsub * 1 := by
    rw [Nat.mul_one]
    exact hy
  have h := ResizeRequest.shared_units hk hn ht hy'
  simp only [Nat.mul_one, Int.natCast_one, Int.mul_one] at h
  exact h

theorem shared_columns {macropixel : Nat} (hk : ((f.hsub * macropixel : Nat) : Int) ∣ q.hskip)
    (hn : f.hsub * macropixel ∣ q.newHsize) (ht : f.hsub * macropixel ∣ q.size.hsize) {c : Nat}
    (hc : c < f.width macropixel q.newHsize) :
    (f.width macropixel q.overlap.dst.hoffset ≤ c ∧ c < f.width macropixel q.overlap.dst.hoffset +
        f.width macropixel q.overlap.dst.hsize) ↔
      0 ≤ (c : Int) + q.hskip / (f.hsub * macropixel : Nat) * f.macropixelSize ∧
        (c : Int) + q.hskip / (f.hsub * macropixel : Nat) * f.macropixelSize <
          f.width macropixel q.size.hsize :=
  ResizeRequest.shared_units hk hn ht hc

theorem paint_of_copy {macropixel : Nat} {old new : Region} {inner : Nat → Nat → UInt8}
    (hs : q.size = ⟨old.hsize, old.vsize, macropixel⟩) (ho : f.OnUnits macropixel old)
    (hn : f.OnUnits macropixel new) (hnew : new.hsize = q.newHsize ∧ new.vsize = q.newVsize)
    (hh : ((f.hsub * macropixel : Nat) : Int) ∣ q.hskip) (hv : (f.vsub : Int) ∣ q.vskip) {y c : Nat}
    (hy : y < f.rows q.newVsize) (hc : c < f.width macropixel q.newHsize) :
    (f.block macropixel ⟨new.hoffset + q.overlap.dst.hoffset, new.voffset + q.overlap.dst.voffset,
        q.overlap.dst.hsize, q.overlap.dst.vsize⟩).paint
      (fun y c => (f.block macropixel old).paint inner (fun _ _ => 0)
        (f.rows (old.voffset + q.overlap.src.voffset) + y)
        (f.width macropixel (old.hoffset + q.overlap.src.hoffset) + c))
      (fun _ _ => 0) (f.rows new.voffset + y) (f.width macropixel new.hoffset + c) =
        f.moved q inner y c := by
  have hrows := shared_rows hv (hnew.2 ▸ hn.vsize) (by rw [hs]; exact ho.vsize) hy
  have hcolumns := shared_columns hh (hnew.1 ▸ hn.hsize) (by rw [hs]; exact ho.hsize) hc
  have hrow : q.vskip / f.vsub = (f.rows q.overlap.src.voffset : Int) - f.rows q.overlap.dst.voffset :=
    ResizeRequest.skip_div hv
  have hcolumn : q.hskip / (f.hsub * macropixel : Nat) * f.macropixelSize =
      (f.width macropixel q.overlap.src.hoffset : Int) - f.width macropixel q.overlap.dst.hoffset := by
    rw [ResizeRequest.skip_div hh, Int.sub_mul]
    rfl
  have htop := f.rows_add hn.voffset q.overlap.dst.voffset
  have hleft := f.width_add hn.hoffset q.overlap.dst.hoffset
  have htop' := f.rows_add ho.voffset q.overlap.src.voffset
  have hleft' := f.width_add ho.hoffset q.overlap.src.hoffset
  by_cases hin : (f.block macropixel ⟨new.hoffset + q.overlap.dst.hoffset,
      new.voffset + q.overlap.dst.voffset, q.overlap.dst.hsize, q.overlap.dst.vsize⟩).Has
        (f.rows new.voffset + y) (f.width macropixel new.hoffset + c)
  · rw [Block.paint, if_pos hin]
    obtain ⟨h₁, h₂, h₃, h₄⟩ := hin
    simp only [block] at h₁ h₂ h₃ h₄
    refine moved_eq (by rw [hs]; rfl) (by rw [hs]; rfl) ?_ ?_
    · simp only [block]
      omega
    · rw [hs]
      simp only [block]
      omega
  · rw [Block.paint, if_neg hin]
    unfold moved
    rw [if_neg]
    intro hgiven
    obtain ⟨hr, hcol⟩ := hgiven
    rw [hs] at hr hcol hrows hcolumns
    obtain ⟨h₁, h₂⟩ := hrows.mpr hr
    obtain ⟨h₃, h₄⟩ := hcolumns.mpr hcol
    exact hin ⟨by simp only [block]; omega, by simp only [block]; omega,
      by simp only [block]; omega, by simp only [block]; omega⟩

end PlaneFormat

/-- Planes that each show their moved bytes make up the reference. -/
theorem flatten_eq_cropPlanes (q : ResizeRequest) (fs : List PlaneFormat) (bytes : List UInt8)
    (hb : (fs.map fun f => f.area q.size).sum ≤ bytes.length)
    {lines : PlaneFormat → List (List UInt8)}
    (hs : ∀ part ∈ packedParts q.size fs bytes, lines part.1 =
      (List.range (part.1.rows q.newVsize)).map fun y =>
        (List.range (part.1.width q.size.macropixel q.newHsize)).map (part.1.moved q part.2 y)) :
    (fs.flatMap lines).flatten = cropPlanes q fs bytes := by
  induction fs generalizing bytes with
  | nil => rfl
  | cons f fs ih =>
    rw [List.map_cons, List.sum_cons] at hb
    have hf : (lines f).flatten = f.crop q bytes := by
      rw [PlaneFormat.crop_eq (by omega)]
      exact congrArg List.flatten (hs _ List.mem_cons_self)
    have hrest := ih (bytes.drop (f.area q.size)) (by rw [List.length_drop]; omega)
      fun part hp => hs part (List.mem_cons_of_mem _ hp)
    rw [List.flatMap_cons, List.flatten_append, hf, hrest, cropPlanes]

end Planar
