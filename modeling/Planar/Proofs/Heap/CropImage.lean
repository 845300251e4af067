import Planar.Proofs.Heap.Admission
set_option autoImplicit false

/-!
A packed image is read into a new picture, which is resized and written out. That ends well for
the requests along the grids and only for them, and then gives the reference, whatever margins and
alignment the manager has.
-/

namespace Planar

namespace Manager

def Affords (m : Manager) (hsize vsize : Nat) : Prop :=
  ∀ f ∈ m.format.planes, m.stride f (m.totalH hsize) ≤ Word.maxSigned ∧
    m.stride f (m.totalH hsize) * f.rows (m.totalV vsize) ≤ Word.maxSigned

structure HasMargins (m : Manager) (hsize vsize : Nat) (q : ResizeRequest) : Prop where
  left : -(m.hprepend : Int) ≤ q.hskip
  top : -(m.vprepend : Int) ≤ q.vskip
  right : q.hskip + q.newHsize ≤ hsize + m.happend
  bottom : q.vskip + q.newVsize ≤ vsize + m.vappend

theorem sound_ofConfig {config : Config} {m : Manager} (h : ofConfig config = .ok m) :
    m.Sound ∧ m.memory = Word.maxSigned := by
  refine ⟨(Built.ofConfig m.memory h).sound, ?_⟩
  obtain ⟨format, -, rfl⟩ := ofConfig_eq_ok h
  rfl

end Manager

/-- Reads a packed image into a new picture, resizes that and writes it out. -/
def cropImage (m : Manager) (hsize vsize : Nat) (bytes : List UInt8) (raw : RawResize) :
    Op Heap (List UInt8) := do
  let p ← Allocator.alloc m hsize vsize
  readPacked p bytes
  let _ ← resizeOrReplace m p raw
  writePacked p

/-- Sizes, skips and margins, as the manager has them, far from the ends of a word, and no block
larger than one can be. -/
structure CropBounds (m : Manager) (hsize vsize : Nat) (raw : RawResize) : Prop where
  size : hsize < 2 ^ 62 ∧ vsize < 2 ^ 62
  hmargins : m.hprepend < 2 ^ 62 ∧ m.happend < 2 ^ 62
  vmargins : m.vprepend < 2 ^ 62 ∧ m.vappend < 2 ^ 62
  skips : raw.hskip.natAbs < 2 ^ 62 ∧ raw.vskip.natAbs < 2 ^ 62
  blocks : m.Affords hsize vsize
  packed : m.format.packedLen ⟨hsize, vsize, m.format.macropixel⟩ ≤ Word.maxSigned
  newSize : ∀ q, raw.resolve ⟨hsize, vsize, m.format.macropixel⟩ = .ok q →
    q.newHsize < 2 ^ 62 ∧ q.newVsize < 2 ^ 62
  newPacked : ∀ q, raw.resolve ⟨hsize, vsize, m.format.macropixel⟩ = .ok q →
    m.format.packedLen ⟨q.newHsize, q.newVsize, m.format.macropixel⟩ ≤ Word.maxSigned
  /-- Only what does not fit into the margins is allocated again. -/
  newBlocks : ∀ q, raw.resolve ⟨hsize, vsize, m.format.macropixel⟩ = .ok q →
    ¬ m.HasMargins hsize vsize q → m.Affords q.newHsize q.newVsize

namespace Heap

variable {h u : Heap} {p : Handle} {picture : Picture} {t : Storage} {m : Manager}
  {q : ResizeRequest} {raw : RawResize} {bytes : List UInt8} {hsize vsize : Nat}

theorem moveFits_of_hasMargins (hr : m.HasMargins hsize vsize q) (hth : t.hsize = m.totalH hsize)
    (htv : t.vsize = m.totalV vsize) : (h.fresh m hsize vsize).MoveFits t q := by
  obtain ⟨hleft, htop, hright, hbottom⟩ := hr
  constructor <;> simp only [fresh, Manager.window, hth, htv, Manager.totalH, Manager.totalV] <;> omega

theorem packable_of_holds (hh : Holds h p picture t m) (hx : m.format.Exact)
    (hc : ∀ f ∈ m.format.planes, m.format.macropixel.Coprime f.hsub) (hpos : 0 < picture.window.hsize)
    (hs : picture.window.hsize ≤ Word.maxSigned ∧ picture.window.vsize ≤ Word.maxSigned) :
    Packable picture m where
  signed := hs
  sampled := hh.sampled hx
  width_pos f hf := PictureFormat.width_pos hh.manager.format hx hf (hc f hf)
    (hh.made.hgrid ▸ hh.held.hsize) hpos

theorem loaded_of_read (h : Heap) (hm : m.Sound) (hg : m.Grants hsize vsize)
    (hs : Packable (h.fresh m hsize vsize) m)
    (hlen : bytes.length = m.format.packedLen ⟨hsize, vsize, m.format.macropixel⟩)
    (hsmall : bytes.length ≤ Word.maxSigned) :
    ∃ u t, readPacked h.next bytes (h.withBlank m hsize vsize) = (.ok (), u) ∧
      Loaded u h.next (h.fresh m hsize vsize) t m
        (packedParts ⟨hsize, vsize, m.format.macropixel⟩ m.format.planes bytes) ∧
          t.hsize = m.totalH hsize ∧ t.vsize = m.totalV vsize := by
  have hh := holds_fresh h hm hg
  have hn := packedLen_of_holds hh (Nat.le_trans (Nat.le_of_eq hlen.symm) hsmall)
  obtain ⟨t, hread, hall⟩ := readPacked_of_holds hh refs_fresh hs (hn.trans (congrArg _ hlen.symm))
  refine ⟨_, t, hread, ⟨hh.store hall.made hall.hsize hall.vsize, ?_, ?_, ?_⟩, hall.hsize, hall.vsize⟩
  · rw [refs_store, refs_fresh]
  · exact formats_packedParts ..
  · intro part hp y c hc
    rw [hall.hsize] at hc
    rw [← Manager.byte_blankStorage m hsize vsize]
    exact hall.here part hp y c hc

theorem writePacked_of_resized
    (hr : Resized u p picture t m q (packedParts q.size m.format.planes bytes))
    (hq : q.size.macropixel = m.format.macropixel) (hs : Packable picture m)
    (hlen : m.format.packedLen ⟨q.newHsize, q.newVsize, m.format.macropixel⟩ ≤ Word.maxSigned)
    (hb : m.format.packedLen q.size ≤ bytes.length) :
    writePacked p u = (.ok (cropPlanes q m.format.planes bytes), u) := by
  have hshown : shown picture m = ⟨q.newHsize, q.newVsize, m.format.macropixel⟩ := by
    rw [shown, hr.hsize, hr.vsize]
  rw [writePacked_of_holds hr.holds hs (hshown ▸ hlen)]
  rw [flatten_eq_cropPlanes q m.format.planes bytes hb]
  intro part hp
  rw [PlaneFormat.collect, hr.hsize, hr.vsize, hq]
  apply List.map_congr_left
  intro y hy
  apply List.map_congr_left
  intro c hc
  exact hr.shows part hp y c (List.mem_range.mp hy) (List.mem_range.mp hc)

section

variable {config : Config} (hm : Manager.ofConfig config = .ok m) (hx : m.Exact)
  (hc : ∀ f ∈ m.format.planes, m.format.macropixel.Coprime f.hsub)
  (hh : m.format.hgrid ∣ hsize) (hv : m.format.vgrid ∣ vsize)
  (hlen : bytes.length = m.format.packedLen ⟨hsize, vsize, m.format.macropixel⟩)
  (hpos : ∀ q, raw.resolve ⟨hsize, vsize, m.format.macropixel⟩ = .ok q → 0 < q.overlap.dst.hsize)
  (hb : CropBounds m hsize vsize raw)

include hm hb in
theorem grants_of_bounds {width height : Nat} (hs : width < 2 ^ 62 ∧ height < 2 ^ 62)
    (hw : m.format.hgrid ∣ width) (hv : m.format.vgrid ∣ height) (ha : m.Affords width height) :
    m.Grants width height := by
  have hmargins := hb.hmargins
  have hmargins' := hb.vmargins
  have hword : Word.maxSigned ≤ Word.maxUnsigned := by decide
  obtain ⟨hsound, hmem⟩ := Manager.sound_ofConfig hm
  refine ⟨hw, hv, ?_, ?_, fun f hf => ?_⟩
  · simp only [Manager.totalH, Word.maxUnsigned]
    omega
  · simp only [Manager.totalV, Word.maxUnsigned]
    omega
  · obtain ⟨hstride, hblock⟩ := ha f hf
    have hrows : max f.vsub 1 = f.vsub := Nat.max_eq_left (hsound.format.factors_pos f hf).2.1
    simp only [Manager.HasRoom, Manager.blankPlane, Array.size_replicate, PlaneDesc.rows, hrows, hmem]
    exact ⟨Nat.le_trans hstride hword, hblock, hblock⟩

include hb in
theorem moveSigned_fresh (hq : raw.resolve ⟨hsize, vsize, m.format.macropixel⟩ = .ok q) (h : Heap) :
    (h.fresh m hsize vsize).MoveSigned q := by
  have hq' := RawResize.resolve_eq_ok.mp hq
  have hnew := hb.newSize q hq
  have hhm := hb.hmargins
  have hvm := hb.vmargins
  have hskips := hb.skips
  rw [← hq'.hskip, ← hq'.vskip] at hskips
  constructor <;> simp only [fresh, Manager.window, Word.maxSigned] <;> omega

include hm hx hc hh hv hlen hpos hb

theorem loaded_of_resolve (hq : raw.resolve ⟨hsize, vsize, m.format.macropixel⟩ = .ok q) (h : Heap) :
    ∃ u t, readPacked h.next bytes (h.withBlank m hsize vsize) = (.ok (), u) ∧
      Loaded u h.next (h.fresh m hsize vsize) t m
        (packedParts ⟨hsize, vsize, m.format.macropixel⟩ m.format.planes bytes) ∧
          t.hsize = m.totalH hsize ∧ t.vsize = m.totalV vsize := by
  obtain ⟨hsound, -⟩ := Manager.sound_ofConfig hm
  have hsigned := (RawResize.resolve_eq_ok.mp hq).signed
  have hpositive : 0 < hsize := by
    have hold := (ResizeRequest.pos_of_overlap (hpos q hq)).2
    rw [(RawResize.resolve_eq_ok.mp hq).before] at hold
    exact hold
  have hgrants := grants_of_bounds hm hb hb.size hh hv hb.blocks
  have hpackable := packable_of_holds (holds_fresh h hsound hgrants) hx.format hc hpositive hsigned
  exact loaded_of_read h hsound hgrants hpackable hlen (hlen ▸ hb.packed)

theorem cropImage_of_onGrid (hq : raw.resolve ⟨hsize, vsize, m.format.macropixel⟩ = .ok q)
    (hg : q.OnGrid m.format) (h : Heap) :
    (cropImage m hsize vsize bytes raw h).1 = .ok (cropPlanes q m.format.planes bytes) := by
  have hgrants := grants_of_bounds hm hb hb.size hh hv hb.blocks
  obtain ⟨hsound, -⟩ := Manager.sound_ofConfig hm
  obtain ⟨u, t, hread, hl, hth, htv⟩ := loaded_of_resolve hm hx hc hh hv hlen hpos hb hq h
  have hq' := RawResize.resolve_eq_ok.mp hq
  have hnew := hb.newSize q hq
  have hskips := hb.skips
  have hsigned : q.newHsize ≤ Word.maxSigned ∧ q.newVsize ≤ Word.maxSigned := by
    simp only [Word.maxSigned]
    omega
  have hcopy : ¬ (h.fresh m hsize vsize).MoveFits t q → m.Grants q.newHsize q.newVsize := by
    intro hfits
    have hblocks := hb.newBlocks q hq fun hr => hfits (moveFits_of_hasMargins hr hth htv)
    exact grants_of_bounds hm hb hnew hg.newHsize hg.newVsize hblocks
  obtain ⟨path, u', picture, t', hresize, hr⟩ := resized_of_onGrid hl hx hc hq' hg
    (moveSigned_fresh hb hq h) hsigned (by simp only [Word.maxSigned]; omega) (hpos q hq) hcopy
  have hpositive : 0 < picture.window.hsize :=
    hr.hsize ▸ (ResizeRequest.pos_of_overlap (hpos q hq)).1
  have hpackable : Packable picture m := packable_of_holds hr.holds hx.format hc hpositive
    (by rw [hr.hsize, hr.vsize]; exact hsigned)
  rw [← hq'.before] at hr
  have hwrite := writePacked_of_resized hr (by rw [hq'.before]) hpackable (hb.newPacked q hq)
    (Nat.le_of_eq (by rw [hq'.before, hlen]))
  have hrun : cropImage m hsize vsize bytes raw h = (.ok (cropPlanes q m.format.planes bytes), u') :=
    (Op.bind_of_ok (Manager.alloc_of_grants hgrants h)).trans
      ((Op.bind_of_ok hread).trans ((Op.bind_of_ok hresize).trans hwrite))
  rw [hrun]

theorem onGrid_of_cropImage {out : List UInt8}
    (hrun : (cropImage m hsize vsize bytes raw h).1 = .ok out) :
    ∃ q, raw.resolve ⟨hsize, vsize, m.format.macropixel⟩ = .ok q ∧ q.OnGrid m.format := by
  have hgrants := grants_of_bounds hm hb hb.size hh hv hb.blocks
  obtain ⟨hsound, -⟩ := Manager.sound_ofConfig hm
  have hrun' : cropImage m hsize vsize bytes raw h =
      (.ok out, (cropImage m hsize vsize bytes raw h).2) := Prod.ext hrun rfl
  obtain ⟨p, t₀, halloc, hrest⟩ := Op.bind_eq_ok.mp hrun'
  cases halloc.symm.trans (Manager.alloc_of_grants hgrants h)
  obtain ⟨_, t₁, hread, hrest'⟩ := Op.bind_eq_ok.mp hrest
  obtain ⟨path, t₂, hresize, -⟩ := Op.bind_eq_ok.mp hrest'
  -- the size is still the one that was allocated
  have hsteady := steady_readPacked h.next bytes (h.withBlank m hsize vsize)
  rw [show readPacked h.next bytes (h.withBlank m hsize vsize) = _ from hread] at hsteady
  obtain ⟨q, hn⟩ := normalize_of_resizeOrReplace hresize
  have hn₀ := (hsteady.normalizeResize h.next raw).symm.trans hn
  have hq := (normalizeResize_eq_ok (holds_fresh h hsound hgrants)).mp hn₀
  obtain ⟨u, t, hloaded, hl, -, -⟩ := loaded_of_resolve hm hx hc hh hv hlen hpos hb hq h
  cases hloaded.symm.trans hread
  have hskips := hb.skips
  obtain ⟨q', hn', hg⟩ := onGrid_of_resizeOrReplace hl.holds hx.toOnGrids hl.holds.manager hx.format
    hresize (by simp only [Word.maxSigned]; omega)
  cases hn.symm.trans hn'
  exact ⟨q, hq, hg⟩

end

theorem gray_crop_resolve : (⟨-2, 0, 4, toEnd⟩ : RawResize).resolve ⟨2, 1, 1⟩ =
    .ok ⟨-2, 0, 4, 1, ⟨2, 1, 1⟩⟩ :=
  eq_ok_of_toOption (by decide +kernel)

theorem gray_cropBounds : CropBounds grayManager 2 1 ⟨-2, 0, 4, toEnd⟩ where
  size := by decide
  hmargins := by decide +kernel
  vmargins := by decide +kernel
  skips := by decide
  blocks := by unfold Manager.Affords; decide +kernel
  packed := by decide +kernel
  newSize := by
    intro q hq
    cases hq.symm.trans gray_crop_resolve
    decide
  newPacked := by
    intro q hq
    cases hq.symm.trans gray_crop_resolve
    decide +kernel
  newBlocks := by
    intro q hq _
    cases hq.symm.trans gray_crop_resolve
    unfold Manager.Affords
    decide +kernel

end Heap

end Planar
