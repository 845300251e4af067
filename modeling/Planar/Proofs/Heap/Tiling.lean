import Planar.Proofs.Heap.Mapping
set_option autoImplicit false

/-!
Regions side by side. Above each other they always fit; next to each other they do if the
divisions by the sampling factors drop nothing at the seam, which is so for coprime factors.
-/

namespace Planar

structure View.Has (v : View) (y : Nat) (row : List UInt8) : Prop where
  length : row.length = v.shape.rowBytes
  row? : 0 < v.shape.rowBytes → v.row? y = some row

theorem View.Has.lt_rows {v : View} {y : Nat} {row : List UInt8} (h : v.Has y row)
    (hr : 0 < row.length) : y < v.shape.rows := by
  have hrow := h.row? (h.length ▸ hr)
  unfold View.row? View.start? at hrow
  split at hrow
  · rename_i hy
    exact hy.1
  · cases hrow

theorem View.has_of_byte {v : View} (hr : 0 < v.shape.rowBytes → v.shape.Regular) {y : Nat}
    (hy : y < v.shape.rows) {row : List UInt8} (hl : row.length = v.shape.rowBytes)
    (hb : ∀ c, c < v.shape.rowBytes → row[c]? = some (v.byte y c)) : v.Has y row where
  length := hl
  row? hpos := by
    rw [row?_of_lt (hr hpos) hy]
    congr 1
    apply List.ext_getElem?
    intro c
    by_cases hc : c < v.shape.rowBytes
    · rw [hb c hc, line, List.getElem?_map, List.getElem?_range hc, Option.map_some]
    · rw [List.getElem?_eq_none (by rw [length_line]; omega), List.getElem?_eq_none (by omega)]

/-- Every row of the view is a row of one view followed by that of another. -/
def View.Beside (v v₁ v₂ : View) : Prop :=
  v₁.shape.rows = v.shape.rows ∧ v₂.shape.rows = v.shape.rows ∧
    ∀ y, y < v.shape.rows → ∃ row₁ row₂, v₁.Has y row₁ ∧ v₂.Has y row₂ ∧ v.Has y (row₁ ++ row₂)

def View.Above (v v₁ v₂ : View) : Prop :=
  v.shape.rows = v₁.shape.rows + v₂.shape.rows ∧
    (∀ y, y < v₁.shape.rows → ∃ row, v₁.Has y row ∧ v.Has y row) ∧
      ∀ y, y < v₂.shape.rows → ∃ row, v₂.Has y row ∧ v.Has (v₁.shape.rows + y) row

namespace PlaneDesc

variable {d : PlaneDesc} {macropixel : Nat}

/-- What is dropped before the first region and in it, and what is dropped in both regions, are
less than a sample together. -/
def Seamless (d : PlaneDesc) (macropixel start first second : Nat) : Prop :=
  start % d.unit macropixel + first % d.unit macropixel < d.unit macropixel ∧
    first % d.unit macropixel + second % d.unit macropixel < d.unit macropixel

/-- The bytes of a seamless pair add up, and of no other. -/
theorem seamless_iff (hs : 0 < d.macropixelSize) (start first second : Nat) :
    d.Seamless macropixel start first second ↔
      d.rowBytes (start + first) macropixel =
          d.rowBytes start macropixel + d.rowBytes first macropixel ∧
        d.rowBytes (first + second) macropixel =
          d.rowBytes first macropixel + d.rowBytes second macropixel := by
  rw [rowBytes_add_iff hs, rowBytes_add_iff hs]
  rfl

theorem seamless_of_dvd {start first : Nat} (hf : d.unit macropixel ∣ first) (second : Nat) :
    d.Seamless macropixel start first second := by
  have hu := d.unit_pos macropixel
  unfold Seamless
  rw [Nat.mod_eq_zero_of_dvd hf, Nat.add_zero, Nat.zero_add]
  exact ⟨Nat.mod_lt _ hu, Nat.mod_lt _ hu⟩

theorem unit_dvd (hd : 0 < d.hsub) (hm : 0 < macropixel) (hc : Nat.Coprime macropixel d.hsub)
    {n : Nat} (hn : d.hsub ∣ n) (hn' : macropixel ∣ n) : d.unit macropixel ∣ n := by
  rw [unit, Nat.max_eq_left hd, Nat.max_eq_left hm]
  exact hc.symm.mul_dvd_of_dvd_of_dvd hn hn'

end PlaneDesc

namespace Heap

def beside (r₁ r₂ : Region) : Region := ⟨r₁.hoffset, r₁.voffset, r₁.hsize + r₂.hsize, r₁.vsize⟩

def above (r₁ r₂ : Region) : Region := ⟨r₁.hoffset, r₁.voffset, r₁.hsize, r₁.vsize + r₂.vsize⟩

variable {makers : List Manager} {h : Heap} {p : Handle} {picture : Picture} {s : Storage}
  {m : Manager} {chroma : String} {plane : PlaneStore} {raw₁ raw₂ : RawRegion} {r₁ r₂ : Region}

theorem normalize_beside (hh : Holds h p picture s m)
    (h₁ : normalizeRegion p chroma raw₁ h = .ok r₁) (h₂ : normalizeRegion p chroma raw₂ h = .ok r₂)
    (hadj : r₂.hoffset = r₁.right) :
    normalizeRegion p chroma (.ofRegion (beside r₁ r₂)) h = .ok (beside r₁ r₂) := by
  obtain ⟨plane, hp, hraw₁, hs₁⟩ := (normalizeRegion_eq_ok hh).mp h₁
  obtain ⟨plane', hp', hraw₂, hs₂⟩ := (normalizeRegion_eq_ok hh).mp h₂
  obtain rfl := Option.some.inj (hp.symm.trans hp')
  have ha₁ := RawRegion.accepted_of_resolve hraw₁
  have ha₂ := RawRegion.accepted_of_resolve hraw₂
  have hright := ha₂.right
  simp only [Region.right] at hadj hright
  refine (normalizeRegion_eq_ok hh).mpr ⟨plane, hp, RawRegion.resolve_ofRegion ?_, ?_⟩
  · refine ⟨?_, ha₁.bottom, ha₁.signed, ha₁.hoffset, (Nat.dvd_add_right ha₁.hsize).mpr ha₂.hsize⟩
    simp only [beside, Region.right]
    omega
  · exact ⟨hs₁.hoffset, (Nat.dvd_add_right hs₁.hsize).mpr hs₂.hsize, hs₁.voffset, hs₁.vsize⟩

theorem normalize_above (hh : Holds h p picture s m)
    (h₁ : normalizeRegion p chroma raw₁ h = .ok r₁) (h₂ : normalizeRegion p chroma raw₂ h = .ok r₂)
    (hadj : r₂.voffset = r₁.bottom) :
    normalizeRegion p chroma (.ofRegion (above r₁ r₂)) h = .ok (above r₁ r₂) := by
  obtain ⟨plane, hp, hraw₁, hs₁⟩ := (normalizeRegion_eq_ok hh).mp h₁
  obtain ⟨plane', hp', hraw₂, hs₂⟩ := (normalizeRegion_eq_ok hh).mp h₂
  obtain rfl := Option.some.inj (hp.symm.trans hp')
  have ha₁ := RawRegion.accepted_of_resolve hraw₁
  have ha₂ := RawRegion.accepted_of_resolve hraw₂
  have hbottom := ha₂.bottom
  simp only [Region.bottom] at hadj hbottom
  refine (normalizeRegion_eq_ok hh).mpr ⟨plane, hp, RawRegion.resolve_ofRegion ?_, ?_⟩
  · refine ⟨ha₁.right, ?_, ha₁.signed, ha₁.hoffset, ha₁.hsize⟩
    simp only [above, Region.bottom]
    omega
  · exact ⟨hs₁.hoffset, hs₁.hsize, hs₁.voffset, (Nat.dvd_add_right hs₁.vsize).mpr hs₂.vsize⟩

def rowOf (picture : Picture) (s : Storage) (plane : PlaneStore) (r : Region) (y : Nat) :
    List UInt8 :=
  (List.range (plane.desc.rowBytes r.hsize s.macropixel)).map fun c =>
    plane.byte (plane.desc.rows (picture.window.voffset + r.voffset) + y)
      (plane.desc.rowBytes (picture.window.hoffset + r.hoffset) s.macropixel + c)

theorem has_rowOf (hh : Holds h p picture s m) (hp : s.plane? chroma = some plane)
    (hn : normalizeRegion p chroma raw₁ h = .ok r₁) :
    ∃ v, (planeRead p chroma raw₁ h).1 = .ok v ∧ v.shape.rows = plane.desc.rows r₁.vsize ∧
      ∀ y, y < v.shape.rows → v.Has y (rowOf picture s plane r₁ y) := by
  obtain ⟨plane', v, hm⟩ := exists_mapping hh hn
  obtain rfl := Option.some.inj (hp.symm.trans hm.named)
  refine ⟨v, by rw [planeRead_of_mapping hh hn hm], hm.rows, fun y hy => ?_⟩
  refine View.has_of_byte hm.regular hy (by simp [rowOf, hm.rowBytes]) fun c hc => ?_
  rw [hm.rowBytes] at hc
  rw [rowOf, List.getElem?_map, List.getElem?_range hc, Option.map_some, hm.byte (hm.rows ▸ hy) hc]

theorem rowOf_beside (hadj : r₂.hoffset = r₁.right) (hrow : r₂.voffset = r₁.voffset)
    (hfactor : 0 < plane.desc.macropixelSize)
    (hseam : plane.desc.Seamless s.macropixel (picture.window.hoffset + r₁.hoffset) r₁.hsize r₂.hsize)
    (y : Nat) : rowOf picture s plane (beside r₁ r₂) y =
      rowOf picture s plane r₁ y ++ rowOf picture s plane r₂ y := by
  obtain ⟨hstart, hsize⟩ := (PlaneDesc.seamless_iff hfactor _ _ _).mp hseam
  have hoffset : picture.window.hoffset + r₂.hoffset =
      picture.window.hoffset + r₁.hoffset + r₁.hsize := by
    rw [hadj, Region.right]
    omega
  unfold rowOf beside
  simp only
  rw [hrow, hoffset, hstart, hsize, List.range_add, List.map_append, List.map_map]
  congr 1
  apply List.map_congr_left
  intro c _
  simp only [Function.comp_apply]
  rw [Nat.add_assoc]

theorem rowOf_above_second (hadj : r₂.voffset = r₁.bottom) (hcol : r₂.hoffset = r₁.hoffset)
    (hsize : r₂.hsize = r₁.hsize) (hs : max plane.desc.vsub 1 ∣ r₁.vsize) (y : Nat) :
    rowOf picture s plane (above r₁ r₂) (plane.desc.rows r₁.vsize + y) =
      rowOf picture s plane r₂ y := by
  have hoffset : picture.window.voffset + r₂.voffset =
      r₁.vsize + (picture.window.voffset + r₁.voffset) := by
    rw [hadj, Region.bottom]
    omega
  unfold rowOf above
  simp only
  rw [hcol, hsize, hoffset, plane.desc.rows_add hs]
  apply List.map_congr_left
  intro c _
  congr 1
  omega

def halved : PictureFormat := ⟨2, [⟨"y8", 2, 1, 1⟩]⟩

def halvedConfig : Config := { format := .custom halved, align := 1 }

def halvedManager : Manager := .build halved halvedConfig

def halvedHeap : Heap := applyAll [.alloc halvedManager 8 1, .readPacked ⟨0⟩ [1, 2]] .empty

theorem reachable_halvedHeap : Reachable [halvedManager] halvedHeap := by
  have hbuilt : (Action.alloc halvedManager 8 1).Legal := by
    rintro m ⟨⟩
    have hconfig : Manager.ofConfig halvedConfig = .ok halvedManager := rfl
    exact .ofConfig Word.maxSigned hconfig
  have hm : (Action.alloc halvedManager 8 1).makers .empty ++ (Action.readPacked ⟨0⟩ [1, 2]).makers
      ((Action.alloc halvedManager 8 1).apply .empty) = [halvedManager] := by decide +kernel
  exact hm ▸ .step (.readPacked ⟨0⟩ [1, 2]) (fun _ hm => nomatch hm) (.step _ hbuilt .empty)

def halvedRow (raw : RawRegion) : Except Stop (Nat × Option (List UInt8)) :=
  (planeRead (⟨0⟩ : Handle) "y8" raw halvedHeap).1.map fun v => (v.shape.rowBytes, v.row? 0)

theorem has_of_halvedRow {raw : RawRegion} (row : List UInt8)
    (hrow : halvedRow raw = .ok (row.length, some row)) :
    ∃ v, (planeRead (⟨0⟩ : Handle) "y8" raw halvedHeap).1 = .ok v ∧ v.Has 0 row := by
  unfold halvedRow at hrow
  cases hv : (planeRead (⟨0⟩ : Handle) "y8" raw halvedHeap).1 with
  | error stop =>
    rw [hv] at hrow
    cases hrow
  | ok v =>
    rw [hv] at hrow
    have hpair := Except.ok.inj hrow
    exact ⟨v, rfl, (congrArg Prod.fst hpair).symm, fun _ => congrArg Prod.snd hpair⟩

end Heap

end Planar
