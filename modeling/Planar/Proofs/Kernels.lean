import Planar.Proofs.Overwriting
import Planar.Proofs.Rows
set_option autoImplicit false

/-!
What the row kernels do to a block of memory. The rows of a view lie apart and each of them is written
once, so it does not show whether they are taken one by one or as pieces, nor in which order.
-/

namespace Planar

variable {shape : Shape} {block : Bytes} {v w src dst : View} {rows : Nat → List UInt8}
  {order : List Nat} {y i n : Nat} {pattern : List UInt8}

/-! ### Blocks -/

/-- The rows of the block are those given. Padding and what follows the last row stay. -/
structure Bytes.Rewritten (s : Shape) (rows : Nat → List UInt8) (old new : Bytes) : Prop where
  size : new.size = old.size
  inside : ∀ y, y < s.rows → (Bytes.window new (y * s.stride) s.rowBytes).toList = rows y
  outside : ∀ i, (∀ y, y < s.rows → ¬ s.InRow y i) → new[i]? = old[i]?

namespace View

theorem ofBytes_eq_ok : ofBytes block shape = .ok v ↔
    (1 < shape.rows → shape.rowBytes ≤ shape.stride) ∧ shape.len ≤ block.size ∧
      v.shape = shape ∧ v.data = block.window 0 shape.len := by
  unfold ofBytes
  constructor
  · intro h
    split at h
    · cases h
    · split at h
      · cases h
      · cases h
        exact ⟨by omega, by omega, rfl, rfl⟩
  · rintro ⟨hcovers, hlen, rfl, hdata⟩
    obtain ⟨shape, data, hsize⟩ := v
    simp only at hdata hcovers hlen ⊢
    subst hdata
    rw [if_neg (by omega), dif_neg (by omega)]

theorem apart_of_ofBytes (hv : ofBytes block shape = .ok v) (hsmall : block.size ≤ Word.maxSigned)
    (hpos : 0 < shape.rowBytes) : shape.Apart := by
  -- a block of memory has no more bytes than a signed word tells, so its rows can be counted
  obtain ⟨hcovers, hlen, -, -⟩ := ofBytes_eq_ok.mp hv
  refine ⟨hpos, hcovers, fun y hy => ?_⟩
  have hw : Word.maxSigned < Word.maxUnsigned := by decide
  have hlast := Nat.mul_le_mul_right shape.stride (show y ≤ shape.rows - 1 by omega)
  unfold Shape.len Word.saturate at hlen ⊢
  rw [if_neg (by omega)] at hlen ⊢
  omega

theorem byte_of_ofBytes (hv : ofBytes block shape = .ok v) (hi : i < shape.len) :
    v.data.byte i = block.byte i := by
  obtain ⟨-, -, -, hdata⟩ := ofBytes_eq_ok.mp hv
  rw [hdata, Bytes.byte_window, if_pos hi, Nat.zero_add]

theorem row?_of_ofBytes (hv : ofBytes block shape = .ok v) (hs : shape.Apart) (hy : y < shape.rows) :
    v.row? y = some (block.window (y * shape.stride) shape.rowBytes).toList := by
  obtain ⟨-, hlen, hshape, hdata⟩ := ofBytes_eq_ok.mp hv
  have hin := hs.held y hy
  have hsize : y * shape.stride + shape.rowBytes ≤ v.data.size := by rwa [v.size_data, hshape]
  unfold row?
  rw [start?_of_apart (hshape ▸ hs) (hshape ▸ hy), Option.map_some, hshape,
    Bytes.toList_window hsize, Bytes.toList_window (Nat.le_trans hin hlen)]
  congr 1
  apply List.map_congr_left
  intro c hc
  rw [List.mem_range] at hc
  exact byte_of_ofBytes hv (by omega)

theorem Rewrites.rewritten (hv : ofBytes block shape = .ok v) (hs : shape.Apart)
    (hlen : ∀ y, y < shape.rows → (rows y).length = shape.rowBytes)
    (hw : v.Rewrites rows (List.range shape.rows) w) :
    Bytes.Rewritten shape rows block (w.putBack block 0) := by
  obtain ⟨-, hfits, rfl, -⟩ := ofBytes_eq_ok.mp hv
  have hsize : (w.putBack block 0).size = block.size := Bytes.size_put ..
  have hdata : w.data.toList.length = v.shape.len := by
    rw [Array.length_toList, w.size_data, hw.shape]
  have hview : ∀ i, i < v.shape.len → (w.putBack block 0).byte i = w.data.byte i := by
    intro i hi
    unfold putBack
    rw [Bytes.byte_put, if_pos (by omega), Nat.sub_zero, Array.getElem?_toList]
    rfl
  refine ⟨hsize, fun y hy => ?_, fun i hi => ?_⟩
  · have hin := hs.held y hy
    rw [Bytes.toList_window (by omega)]
    rw [← map_range_row (hlen y hy)]
    apply List.map_congr_left
    intro c hc
    rw [List.mem_range] at hc
    rw [hview _ (by omega), hw.inside y (List.mem_range.mpr hy) c hc]
  · by_cases hlast : i < v.shape.len
    · refine Bytes.getElem?_eq_of_byte (by omega) (by omega) ?_
      rw [hview i hlast, hw.outside i fun y hy => hi y (List.mem_range.mp hy), byte_of_ofBytes hv hlast]
    · unfold putBack
      rw [Bytes.getElem?_put, if_neg (by omega)]

/-! ### Kernels -/

section

variable {step : View → Nat → Except Stop View} (hv : v.shape.Apart)
  (hlen : ∀ y, y < v.shape.rows → (rows y).length = v.shape.rowBytes)
  (hstep : ∀ u y, u.shape = v.shape → y < v.shape.rows →
    step u y = Stop.ofOption (u.setRow? y (rows y)))

include hv hlen hstep

theorem foldlM_eq_setRows? (horder : ∀ y ∈ order, y < v.shape.rows) :
    order.foldlM step v = Stop.ofOption (v.setRows? rows order) := by
  induction order generalizing v with
  | nil => rfl
  | cons y order ih =>
    obtain ⟨hy, hrest⟩ := List.forall_mem_cons.mp horder
    have hset := setRow?_of_apart hv hy (hlen y hy)
    unfold setRows? at ih ⊢
    rw [List.foldlM_cons, List.foldlM_cons, hstep v y rfl hy, hset]
    exact ih (v := v.overwrite (y * v.shape.stride) (rows y)) hv hlen hstep hrest

/-- If it comes to all rows, the order does not matter. -/
theorem foldlM_of_rewrites (hw : v.Rewrites rows (List.range v.shape.rows) w)
    (horder : order.Perm (List.range v.shape.rows)) : order.foldlM step v = .ok w := by
  have hmem : ∀ y, y ∈ order ↔ y ∈ List.range v.shape.rows := fun y => horder.mem_iff
  have hrows : ∀ y ∈ order, y < v.shape.rows := fun y hy => List.mem_range.mp ((hmem y).mp hy)
  obtain ⟨u, hrun, hu⟩ := exists_rewrites rows order hv fun y hy => ⟨hrows y hy, hlen y (hrows y hy)⟩
  rw [foldlM_eq_setRows? hv hlen hstep hrows, hrun, hu.unique hw hmem]
  rfl

end

theorem pieceStart?_of_apart (hv : v.shape.Apart) (hr : 1 < v.shape.rows) (hy : y < v.shape.rows) :
    v.pieceStart? y = v.start? y :=
  pieceStart?_of_visited (hv.whole hr) (visits_of_pos hv.pos ▸ hy)

theorem pieces_of_apart (hv : v.shape.Apart) (hr : 1 < v.shape.rows) : v.pieces = v.shape.rows :=
  (pieces_eq_visits (hv.whole hr) hv.pos (by omega)).trans (visits_of_pos hv.pos)

/-- However the copy is made, the destination ends as this view. -/
structure CopiesTo (src dst w : View) : Prop where
  run : copyRows src dst = .ok w
  rowByRow : copyRowByRow src dst = .ok w
  shared : worthSharing src.shape.rows src.shape.rowBytes [src.shape.stride, dst.shape.stride] = true →
    ∀ order, order.Perm (List.range (min src.pieces dst.pieces)) → copyPieces src dst order = .ok w

structure FillsTo (dst : View) (pattern : List UInt8) (w : View) : Prop where
  run : fillRows dst pattern = .ok w
  rowByRow : fillRowByRow dst pattern = .ok w
  shared : worthSharing dst.shape.rows dst.shape.rowBytes [dst.shape.stride] = true →
    ∀ order, order.Perm (List.range dst.pieces) → fillPieces dst pattern order = .ok w

theorem copyRow_of_row? (hrow : src.row? y = some (rows y)) :
    copyRow src w y = Stop.ofOption (w.setRow? y (rows y)) := by
  unfold copyRow
  rw [hrow]
  rfl

theorem copiesTo_of_rewrites (hs : src.shape.Apart) (hd : dst.shape.Apart) (ha : Alike src dst)
    (hrows : ∀ y, y < dst.shape.rows → src.row? y = some (rows y))
    (hlen : ∀ y, y < dst.shape.rows → (rows y).length = dst.shape.rowBytes)
    (hw : dst.Rewrites rows (List.range dst.shape.rows) w) : CopiesTo src dst w := by
  have hstep : ∀ u y, u.shape = dst.shape → y < dst.shape.rows →
      copyRow src u y = Stop.ofOption (u.setRow? y (rows y)) :=
    fun u y _ hy => copyRow_of_row? (hrows y hy)
  have hloop : copyRowByRow src dst = .ok w := by
    unfold copyRowByRow
    rw [visits_of_pos hs.pos, ha.rows]
    exact foldlM_of_rewrites hd hlen hstep hw (.refl _)
  have hshared : worthSharing src.shape.rows src.shape.rowBytes
      [src.shape.stride, dst.shape.stride] = true →
        ∀ order, order.Perm (List.range (min src.pieces dst.pieces)) →
          copyPieces src dst order = .ok w := by
    intro hshare order horder
    have hmany := many_of_worthSharing hshare
    rw [pieces_of_apart hs hmany, pieces_of_apart hd (ha.rows ▸ hmany), ha.rows, Nat.min_self] at horder
    refine foldlM_of_rewrites hd hlen (fun u y hu hy => ?_) hw horder
    rw [← hstep u y hu hy]
    exact copyPiece_eq_copyRow (pieceStart?_of_apart hs hmany (ha.rows ▸ hy))
      (pieceStart?_of_apart (hu ▸ hd) (hu ▸ ha.rows ▸ hmany) (hu ▸ hy))
  refine ⟨?_, hloop, hshared⟩
  unfold copyRows
  rw [if_neg (by simp [ha.rows, ha.rowBytes])]
  split
  · exact hshared ‹_› _ (.refl _)
  · exact hloop

theorem fillsTo_of_rewrites (hd : dst.shape.Apart) (hne : pattern ≠ [])
    (hdvd : pattern.length ∣ dst.shape.rowBytes)
    (hlen : (patternRow dst.shape.rowBytes pattern).length = dst.shape.rowBytes)
    (hw : dst.Rewrites (fun _ => patternRow dst.shape.rowBytes pattern)
      (List.range dst.shape.rows) w) : FillsTo dst pattern w := by
  have hstep : ∀ u y, u.shape = dst.shape → y < dst.shape.rows → fillRow pattern u y =
      Stop.ofOption (u.setRow? y (patternRow dst.shape.rowBytes pattern)) := by
    intro u y hu _
    unfold fillRow
    rw [hu]
  have hloop : fillRowByRow dst pattern = .ok w := by
    unfold fillRowByRow
    rw [visits_of_pos hd.pos]
    exact foldlM_of_rewrites hd (fun _ _ => hlen) hstep hw (.refl _)
  have hshared : worthSharing dst.shape.rows dst.shape.rowBytes [dst.shape.stride] = true →
      ∀ order, order.Perm (List.range dst.pieces) → fillPieces dst pattern order = .ok w := by
    intro hshare order horder
    have hmany := many_of_worthSharing hshare
    rw [pieces_of_apart hd hmany] at horder
    refine foldlM_of_rewrites hd (fun _ _ => hlen) (fun u y hu hy => ?_) hw horder
    rw [← hstep u y hu hy]
    exact fillPiece_eq_fillRow (pieceStart?_of_apart (hu ▸ hd) (hu ▸ hmany) (hu ▸ hy))
  refine ⟨?_, hloop, hshared⟩
  unfold fillRows
  rw [if_neg (by simp [hne, Nat.mod_eq_zero_of_dvd hdvd])]
  split
  · exact hshared ‹_› _ (.refl _)
  · exact hloop

theorem length_patternRow (hdvd : pattern.length ∣ n) : (patternRow n pattern).length = n := by
  rw [patternRow_eq (Nat.mod_eq_zero_of_dvd hdvd)]
  simp

theorem exists_copied {source : Bytes} {shape' : Shape} (hs : ofBytes source shape = .ok src)
    (hd : ofBytes block shape' = .ok dst) (has : shape.Apart) (had : shape'.Apart)
    (hrows : shape.rows = shape'.rows) (hbytes : shape.rowBytes = shape'.rowBytes) :
    ∃ w, CopiesTo src dst w ∧ Bytes.Rewritten shape'
      (fun y => (source.window (y * shape.stride) shape.rowBytes).toList) block (w.putBack block 0) := by
  obtain ⟨-, hfits, rfl, -⟩ := ofBytes_eq_ok.mp hs
  obtain ⟨-, -, rfl, -⟩ := ofBytes_eq_ok.mp hd
  have hlen : ∀ y, y < dst.shape.rows →
      (source.window (y * src.shape.stride) src.shape.rowBytes).toList.length = dst.shape.rowBytes := by
    intro y hy
    have hin := has.held y (hrows ▸ hy)
    rw [Array.length_toList, Bytes.size_window _ (by omega), hbytes]
  obtain ⟨w, -, hw⟩ := exists_rewrites _ (List.range dst.shape.rows) had
    fun y hy => ⟨List.mem_range.mp hy, hlen y (List.mem_range.mp hy)⟩
  exact ⟨w, copiesTo_of_rewrites has had ⟨hrows, hbytes⟩
    (fun y hy => row?_of_ofBytes hs has (hrows ▸ hy)) hlen hw, hw.rewritten hd had hlen⟩

theorem exists_filled (hd : ofBytes block shape = .ok dst) (had : shape.Apart) (hne : pattern ≠ [])
    (hdvd : pattern.length ∣ shape.rowBytes) :
    ∃ w, FillsTo dst pattern w ∧ Bytes.Rewritten shape
      (fun _ => patternRow shape.rowBytes pattern) block (w.putBack block 0) := by
  obtain ⟨-, -, rfl, -⟩ := ofBytes_eq_ok.mp hd
  have hlen := length_patternRow hdvd
  obtain ⟨w, -, hw⟩ := exists_rewrites (fun _ => patternRow dst.shape.rowBytes pattern)
    (List.range dst.shape.rows) had fun y hy => ⟨List.mem_range.mp hy, hlen⟩
  exact ⟨w, fillsTo_of_rewrites had hne hdvd hlen hw, hw.rewritten hd had fun _ _ => hlen⟩

/-- A copy is refused exactly if the rows differ in number or width, and a fill exactly if the pattern
is empty or does not fit. Otherwise the rows of the block are those of the source, or the pattern over
and over, and all its other bytes stay. Row by row or in pieces, in whatever order, the end is the same. -/
theorem kernels_rewrite_rows {source : Bytes} {shape' : Shape} (hs : ofBytes source shape = .ok src)
    (hd : ofBytes block shape' = .ok dst)
    (hsmall : source.size ≤ Word.maxSigned ∧ block.size ≤ Word.maxSigned)
    (hpos : 0 < shape.rowBytes ∧ 0 < shape'.rowBytes) :
    (shape.rows ≠ shape'.rows ∨ shape.rowBytes ≠ shape'.rowBytes →
      copyRows src dst = .error (.fault (.invalid (.rowsDiffer shape shape')))) ∧
    (shape.rows = shape'.rows ∧ shape.rowBytes = shape'.rowBytes →
      ∃ w, CopiesTo src dst w ∧ Bytes.Rewritten shape'
        (fun y => (source.window (y * shape.stride) shape.rowBytes).toList) block
          (w.putBack block 0)) ∧
    ∀ pattern : List UInt8,
      (pattern = [] ∨ ¬ pattern.length ∣ shape'.rowBytes → fillRows dst pattern =
        .error (.fault (.unsupported (.fillPattern pattern.length shape'.rowBytes)))) ∧
      (pattern ≠ [] ∧ pattern.length ∣ shape'.rowBytes →
        ∃ w, FillsTo dst pattern w ∧ Bytes.Rewritten shape'
          (fun _ => patternRow shape'.rowBytes pattern) block (w.putBack block 0)) := by
  have has := apart_of_ofBytes hs hsmall.1 hpos.1
  have had := apart_of_ofBytes hd hsmall.2 hpos.2
  have hshape := (ofBytes_eq_ok.mp hs).2.2.1
  have hshape' := (ofBytes_eq_ok.mp hd).2.2.1
  refine ⟨?_, ?_, fun pattern => ⟨?_, ?_⟩⟩
  · intro hdiffer
    unfold copyRows
    rw [hshape, hshape', if_pos hdiffer]
  · rintro ⟨hrows, hbytes⟩
    exact exists_copied hs hd has had hrows hbytes
  · intro hbad
    rw [Nat.dvd_iff_mod_eq_zero] at hbad
    unfold fillRows
    rw [hshape', if_pos (by simpa using hbad)]
  · rintro ⟨hne, hdvd⟩
    exact exists_filled hd had hne hdvd

theorem pieces_copied_backwards : ∃ (source block : Bytes) (src dst w : View),
    source = Array.replicate 65536 7 ∧ block = Array.replicate 65537 1 ∧
      ofBytes source ⟨32768, 32768, 2⟩ = .ok src ∧ ofBytes block ⟨32768, 32768, 2⟩ = .ok dst ∧
        copyPieces src dst [1, 0] = .ok w ∧ copyRows src dst = .ok w ∧
          ((w.putBack block 0).window 32768 32768).toList = (source.window 32768 32768).toList ∧
            (w.putBack block 0)[65536]? = some 1 ∧
              fillRows dst [1, 2, 3] = .error (.fault (.unsupported (.fillPattern 3 32768))) := by
  obtain ⟨source, hsource⟩ : ∃ source : Bytes, source = Array.replicate 65536 7 := ⟨_, rfl⟩
  obtain ⟨block, hblock⟩ : ∃ block : Bytes, block = Array.replicate 65537 1 := ⟨_, rfl⟩
  have hsize : source.size = 65536 := hsource ▸ Array.size_replicate
  have hsize' : block.size = 65537 := hblock ▸ Array.size_replicate
  have hlen : (⟨32768, 32768, 2⟩ : Shape).len = 65536 := by decide
  have hview : ∀ b : Bytes, 65536 ≤ b.size →
      ∃ v, ofBytes b ⟨32768, 32768, 2⟩ = .ok v ∧ v.pieces = 2 := by
    intro b hb
    refine ⟨⟨⟨32768, 32768, 2⟩, b.window 0 65536, Bytes.size_window _ (by omega)⟩,
      ofBytes_eq_ok.mpr ⟨fun _ => Nat.le_refl _, by omega, rfl, rfl⟩, ?_⟩
    simp [pieces, Bytes.size_window b (show 0 + 65536 ≤ b.size by omega)]
  obtain ⟨src, hs, hpieces⟩ := hview source (Nat.le_of_eq hsize.symm)
  obtain ⟨dst, hd, hpieces'⟩ := hview block (by omega)
  have hsmall : source.size ≤ Word.maxSigned ∧ block.size ≤ Word.maxSigned := by
    rw [hsize, hsize']
    decide
  obtain ⟨-, hcopy, hfill⟩ := kernels_rewrite_rows hs hd hsmall (by decide)
  obtain ⟨w, hcopied, hrewritten⟩ := hcopy ⟨rfl, rfl⟩
  have horder : [1, 0].Perm (List.range (min src.pieces dst.pieces)) := by
    rw [hpieces, hpieces']
    decide
  have hbehind : ∀ y, y < 2 → ¬ Shape.InRow ⟨32768, 32768, 2⟩ y 65536 := by
    rintro y hy ⟨-, hto⟩
    simp only at hto
    omega
  have hshare : worthSharing src.shape.rows src.shape.rowBytes
      [src.shape.stride, dst.shape.stride] = true := by
    rw [(ofBytes_eq_ok.mp hs).2.2.1, (ofBytes_eq_ok.mp hd).2.2.1]
    decide
  refine ⟨source, block, src, dst, w, hsource, hblock, hs, hd, hcopied.shared hshare _ horder,
    hcopied.run, hrewritten.inside 1 (by decide), ?_, (hfill [1, 2, 3]).1 (.inr (by decide))⟩
  rw [hrewritten.outside 65536 hbehind, hblock, Array.getElem?_replicate, if_pos (by decide)]

end View

end Planar
