import Planar.Proofs.Heap.Joining
import Planar.Proofs.Heap.Run
set_option autoImplicit false

/-!
Packed images there and back. What is read into a picture is what is written out of it, and what is
written out of one picture can be read into any other one with the same planes, wherever its window is.
-/

namespace Planar

/-! ### Rows of a packed image -/

namespace View

def packedRows (bytes : List UInt8) (width rows : Nat) : List (List UInt8) :=
  (List.range rows).map fun y => (List.range width).map (packedByte bytes width y)

theorem packedRows_succ {bytes : List UInt8} {width : Nat} (h : width ≤ bytes.length) (rows : Nat) :
    packedRows bytes width (rows + 1) = bytes.take width :: packedRows (bytes.drop width) width rows := by
  have hfirst : (List.range width).map (packedByte bytes width 0) = bytes.take width := by
    have htop : packedByte bytes width 0 = fun c => bytes[0 + c]?.getD 0 := by
      funext c
      simp [packedByte]
    rw [htop, ← take_drop_eq (by omega), List.drop_zero]
  rw [packedRows, List.range_succ_eq_map, List.map_cons, List.map_map, hfirst]
  congr 1
  apply List.map_congr_left
  intro y _
  apply List.map_congr_left
  intro c _
  simp only [packedByte, List.getElem?_drop, Nat.succ_mul]
  congr 2
  omega

theorem flatten_packedRows {bytes : List UInt8} {width rows : Nat} (h : rows * width ≤ bytes.length) :
    (packedRows bytes width rows).flatten = bytes.take (rows * width) := by
  induction rows generalizing bytes with
  | zero => simp [packedRows]
  | succ rows ih =>
    rw [Nat.succ_mul] at h ⊢
    rw [packedRows_succ (by omega), List.flatten_cons, ih (by rw [List.length_drop]; omega),
      Nat.add_comm, List.take_add]

theorem length_flatten_of_width {width : Nat} {rows : List (List UInt8)}
    (h : ∀ row ∈ rows, row.length = width) : rows.flatten.length = rows.length * width := by
  induction rows with
  | nil => simp
  | cons row rows ih =>
    obtain ⟨hrow, hrest⟩ := List.forall_mem_cons.mp h
    rw [List.flatten_cons, List.length_append, List.length_cons, hrow, ih hrest, Nat.succ_mul, Nat.add_comm]

theorem packedRows_flatten {width : Nat} (rows : List (List UInt8)) (rest : List UInt8)
    (h : ∀ row ∈ rows, row.length = width) :
    packedRows (rows.flatten ++ rest) width rows.length = rows := by
  induction rows with
  | nil => rfl
  | cons row rows ih =>
    obtain rfl := h row List.mem_cons_self
    rw [List.length_cons, packedRows_succ (by simp), List.flatten_cons, List.append_assoc,
      List.take_left, List.drop_left, ih fun row' hrow => h row' (List.mem_cons_of_mem _ hrow)]

end View

def PlaneFormat.lay (f : PlaneFormat) (size : Size) (see : Nat → Nat → UInt8) : List (List UInt8) :=
  (List.range (f.rows size.vsize)).map fun y =>
    (List.range (f.width size.macropixel size.hsize)).map (see y)

theorem PlaneFormat.lay_packedByte (f : PlaneFormat) (size : Size) (bytes : List UInt8) :
    f.lay size (View.packedByte bytes (f.width size.macropixel size.hsize)) =
      View.packedRows bytes (f.width size.macropixel size.hsize) (f.rows size.vsize) := rfl

variable {size : Size} {bytes : List UInt8} {rows : PlaneFormat → List (List UInt8)}

theorem flatten_packedParts (fs : List PlaneFormat)
    (hlen : (fs.map fun f => f.area size).sum ≤ bytes.length)
    (hr : ∀ part ∈ packedParts size fs bytes, rows part.1 = part.1.lay size part.2) :
    (fs.flatMap rows).flatten = bytes.take (fs.map fun f => f.area size).sum := by
  induction fs generalizing bytes with
  | nil => simp
  | cons f fs ih =>
    rw [List.map_cons, List.sum_cons] at hlen ⊢
    rw [packedParts, List.forall_mem_cons] at hr
    have hfirst : f.rows size.vsize * f.width size.macropixel size.hsize ≤ bytes.length := by
      have harea : f.area size ≤ bytes.length := by omega
      exact harea
    rw [List.flatMap_cons, List.flatten_append, hr.1, PlaneFormat.lay_packedByte,
      View.flatten_packedRows hfirst, ih (by rw [List.length_drop]; omega) hr.2, List.take_add]
    rfl

structure PlaneFormat.Fills (f : PlaneFormat) (size : Size) (rows : List (List UInt8)) : Prop where
  length : rows.length = f.rows size.vsize
  width : ∀ row ∈ rows, row.length = f.width size.macropixel size.hsize

theorem PlaneFormat.Fills.length_flatten {f : PlaneFormat} {rows : List (List UInt8)}
    (hf : f.Fills size rows) : rows.flatten.length = f.area size := by
  rw [View.length_flatten_of_width hf.width, hf.length]
  rfl

theorem length_flatMap_fills (fs : List PlaneFormat) (hr : ∀ f ∈ fs, f.Fills size (rows f)) :
    (fs.flatMap rows).flatten.length = (fs.map fun f => f.area size).sum := by
  induction fs with
  | nil => rfl
  | cons f fs ih =>
    obtain ⟨hfirst, hrest⟩ := List.forall_mem_cons.mp hr
    rw [List.flatMap_cons, List.flatten_append, List.length_append, hfirst.length_flatten, ih hrest,
      List.map_cons, List.sum_cons]

theorem lay_packedParts (fs : List PlaneFormat) (hr : ∀ f ∈ fs, f.Fills size (rows f)) :
    ∀ part ∈ packedParts size fs (fs.flatMap rows).flatten, part.1.lay size part.2 = rows part.1 := by
  induction fs with
  | nil => exact nofun
  | cons f fs ih =>
    obtain ⟨hfirst, hrest⟩ := List.forall_mem_cons.mp hr
    rw [List.flatMap_cons, List.flatten_append, packedParts, List.forall_mem_cons]
    constructor
    · rw [PlaneFormat.lay_packedByte, ← hfirst.length]
      exact View.packedRows_flatten _ _ hfirst.width
    · rw [← hfirst.length_flatten, List.drop_left]
      exact ih hrest

theorem fills_collect (f : PlaneFormat) (window : Region) (macropixel : Nat)
    (see : String → Nat → Nat → UInt8) :
    f.Fills ⟨window.hsize, window.vsize, macropixel⟩ (f.collect macropixel window see) := by
  constructor <;> simp [PlaneFormat.collect]

theorem eq_of_map_eq {α β : Type} {g : α → β} {as bs : List α} (h : as.map g = bs.map g)
    (hi : ∀ a ∈ as, ∀ b ∈ bs, g a = g b → a = b) : as = bs := by
  induction as generalizing bs with
  | nil =>
    rw [List.map_nil, List.nil_eq, List.map_eq_nil_iff] at h
    exact h.symm
  | cons a as ih =>
    cases bs with
    | nil => cases h
    | cons b bs =>
      obtain ⟨hfirst, hrest⟩ := List.cons.inj h
      rw [hi a List.mem_cons_self b List.mem_cons_self hfirst, ih hrest fun c hc d hd =>
        hi c (List.mem_cons_of_mem a hc) d (List.mem_cons_of_mem b hd)]

namespace Heap

variable {makers : List Manager} {h : Heap} {p q : Handle} {picture src dst : Picture} {s t : Storage}
  {m k : Manager} {n : Nat}

/-- The image of the picture has `n` bytes, and there are some in each row. -/
structure Packs (h : Heap) (p : Handle) (size : Size) (n : Nat) : Prop where
  sized : h.size p = .ok size
  signed : size.hsize ≤ Word.maxSigned ∧ size.vsize ≤ Word.maxSigned
  dense : ∀ chroma ∈ h.planes p, ∀ desc, h.planeDesc p chroma = .ok desc →
    0 < desc.rowBytes size.hsize size.macropixel
  len : packedLen p h = .ok n
  small : n ≤ Word.maxSigned

/-- Two pictures of one size with the same planes. Margins, strides and windows may differ. -/
structure Alike (h : Heap) (p q : Handle) : Prop where
  size : h.size q = h.size p
  planes : h.planes q = h.planes p
  sampling : ∀ chroma ∈ h.planes p, ∃ desc desc', h.planeDesc p chroma = .ok desc ∧
    h.planeDesc q chroma = .ok desc' ∧ desc.sameSampling desc' = true

theorem Packs.holds (hr : Reachable makers h) (hp : Packs h p size n) :
    ∃ picture s m, Holds h p picture s m := by
  obtain ⟨⟨picture, s⟩, hf, -⟩ := Except.bind_eq_ok.mp hp.sized
  exact ⟨picture, hr.sound.holds (find_eq_ok.mp hf).1⟩

theorem Holds.width_pos (hh : Holds h p picture s m) (hd : ∀ chroma ∈ h.planes p, ∀ desc,
    h.planeDesc p chroma = .ok desc → 0 < desc.rowBytes picture.window.hsize m.format.macropixel) :
    ∀ f ∈ m.format.planes, 0 < f.width m.format.macropixel picture.window.hsize := by
  intro f hf
  have hmem : f.chroma ∈ h.planes p := hh.chromas ▸ List.mem_map_of_mem hf
  obtain ⟨plane, hplane, rfl⟩ := hh.made.plane? hh.manager hf
  have hfactors := (hh.fits hplane).factors
  have hwidth := hd _ hmem _ (planeDesc_of_find hh.find hplane)
  rw [PlaneStore.width_format hfactors.1 hh.manager.format.macropixel_pos] at hwidth
  exact hwidth

theorem Packs.packable (hp : Packs h p size n) (hh : Holds h p picture s m) (hx : m.format.Exact) :
    Packable picture m ∧ shown picture m = size ∧ n = m.format.packedLen (shown picture m) := by
  obtain rfl := Except.ok.inj (hh.size_eq.symm.trans hp.sized)
  exact ⟨⟨hp.signed, hh.sampled hx, hh.width_pos hp.dense⟩, rfl, ((packedLen_eq_ok hh).mp hp.len).1⟩

theorem Alike.formats (ha : Alike h p q) (hp : Holds h p src s m) (hq : Holds h q dst t k) :
    k.format.planes = m.format.planes ∧ shown dst k = shown src m := by
  have hnames := ha.planes
  rw [hp.chromas, hq.chromas] at hnames
  refine ⟨eq_of_map_eq hnames fun g hg f hf hchroma => ?_, ?_⟩
  · have hmem : f.chroma ∈ h.planes p := hp.chromas ▸ List.mem_map_of_mem hf
    obtain ⟨desc, desc', hdesc, hdesc', hsame⟩ := ha.sampling f.chroma hmem
    obtain ⟨plane, hplane, rfl⟩ := hp.made.plane? hp.manager hf
    obtain ⟨plane', hplane', rfl⟩ := hq.made.plane? hq.manager hg
    obtain rfl := Except.ok.inj ((planeDesc_of_find hp.find hplane).symm.trans hdesc)
    rw [← hchroma] at hdesc'
    obtain rfl := Except.ok.inj ((planeDesc_of_find hq.find hplane').symm.trans hdesc')
    exact format_of_sampling hchroma hsame
  · exact Except.ok.inj (hq.size_eq.symm.trans (ha.size.trans hp.size_eq))

theorem shown_of_readPacked (hh : Holds h p picture s m) (hone : h.refs picture.storage = 1)
    (hs : Packable picture m) {bytes : List UInt8}
    (hlen : bytes.length = m.format.packedLen (shown picture m)) (hsmall : bytes.length ≤ Word.maxSigned) :
    ∃ s', readPacked p bytes h = (.ok (), h.store picture.storage s') ∧
      Holds (h.store picture.storage s') p picture s' m ∧ s.SameAround s' picture.window ∧
        ∀ part ∈ packedParts (shown picture m) m.format.planes bytes,
          part.1.collect m.format.macropixel picture.window s'.byte = part.1.lay (shown picture m) part.2 := by
  have hn : packedLen p h = .ok bytes.length := hlen ▸ packedLen_of_holds hh (hlen ▸ hsmall)
  obtain ⟨s', hrun, hall, haround⟩ := fills_of_holds hh hone hs hn
  refine ⟨s', hrun, hh.store hall.made hall.hsize hall.vsize, haround, fun part hpart => ?_⟩
  apply List.map_congr_left
  intro y hy
  apply List.map_congr_left
  intro c hc
  exact hall.shows hh.made hh.held.right hpart (List.mem_range.mp hy) (List.mem_range.mp hc)

/-- An image of the right length comes back out, and the picture has nothing else that is new. -/
theorem writePacked_of_readPacked (hh : Holds h p picture s m) (hone : h.refs picture.storage = 1)
    (hs : Packable picture m) {bytes : List UInt8}
    (hlen : bytes.length = m.format.packedLen (shown picture m)) (hsmall : bytes.length ≤ Word.maxSigned) :
    ∃ s' u, readPacked p bytes h = (.ok (), u) ∧ u.find p = .ok (picture, s') ∧
      s.SameAround s' picture.window ∧ (writePacked p u).1 = .ok bytes := by
  obtain ⟨s', hrun, hh', haround, hshows⟩ := shown_of_readPacked hh hone hs hlen hsmall
  refine ⟨s', _, hrun, hh'.find, haround, ?_⟩
  have hall : (m.format.planes.flatMap fun f =>
      f.collect m.format.macropixel picture.window s'.byte).flatten =
        bytes.take (m.format.packedLen (shown picture m)) :=
    flatten_packedParts m.format.planes (Nat.le_of_eq hlen.symm) hshows
  rw [writePacked_of_holds hh' hs (hlen ▸ hsmall), hall, ← hlen, List.take_length]

/-- The image of one picture can be read into another one, which then shows the same rows. -/
theorem reads_of_transfer (hp : Holds h p src s m) (hq : Holds h q dst t k) (ha : Alike h p q)
    (hone : h.refs dst.storage = 1) (hs : Packable src m)
    (hsmall : m.format.packedLen (shown src m) ≤ Word.maxSigned) :
    ∃ t', readPacked q (m.format.planes.flatMap fun f =>
        f.collect m.format.macropixel src.window s.byte).flatten h = (.ok (), h.store dst.storage t') ∧
      ∀ f ∈ m.format.planes, (h.store dst.storage t').Reads q f.chroma .full
        (f.collect m.format.macropixel src.window s.byte) := by
  obtain ⟨hformats, hshown⟩ := ha.formats hp hq
  have hfills : ∀ f ∈ m.format.planes,
      f.Fills (shown src m) (f.collect m.format.macropixel src.window s.byte) :=
    fun f _ => fills_collect f src.window m.format.macropixel s.byte
  have hlen : (m.format.planes.flatMap fun f =>
      f.collect m.format.macropixel src.window s.byte).flatten.length = m.format.packedLen (shown src m) :=
    length_flatMap_fills m.format.planes hfills
  have hs' : Packable dst k := by
    have hh : dst.window.hsize = src.window.hsize := congrArg Size.hsize hshown
    have hv : dst.window.vsize = src.window.vsize := congrArg Size.vsize hshown
    have hm : k.format.macropixel = m.format.macropixel := congrArg Size.macropixel hshown
    have hw := hs.sampled
    exact ⟨hh ▸ hv ▸ hs.signed, ⟨hm ▸ hh ▸ hw.macropixel, fun f hf => hh ▸ hw.hsub f (hformats ▸ hf),
      fun f hf => hv ▸ hw.vsub f (hformats ▸ hf)⟩, fun f hf => hh ▸ hm ▸ hs.width_pos f (hformats ▸ hf)⟩
  obtain ⟨t', hrun, hh', -, hshows⟩ := shown_of_readPacked hq hone hs'
    (by simp only [hlen, hshown, PictureFormat.packedLen, hformats]) (hlen ▸ hsmall)
  refine ⟨t', hrun, fun f hf => ?_⟩
  have hreads := reads_full hh' hs' (hformats ▸ hf)
  have hf' := hf
  rw [← hformats, ← formats_packedParts (shown dst k) k.format.planes
    (m.format.planes.flatMap fun f => f.collect m.format.macropixel src.window s.byte).flatten] at hf'
  obtain ⟨part, hpart, rfl⟩ := List.mem_map.mp hf'
  rw [hshows part hpart] at hreads
  rw [hshown, hformats] at hpart
  rw [hshown, lay_packedParts m.format.planes hfills part hpart] at hreads
  exact hreads

def twoGrays : Heap :=
  applyAll [.alloc grayManager 4 2, .alloc grayManager 6 2, .resize ⟨1⟩ ⟨1, 0, 4, toEnd⟩] .empty

theorem reachable_twoGrays : Reachable [grayManager, grayManager] twoGrays := by
  have hfirst := Reachable.step (.alloc grayManager 4 2) (legal_of_gray (.inl rfl)) .empty
  have hsecond := hfirst.step (.alloc grayManager 6 2) (legal_of_gray (.inl rfl))
  have hthird := hsecond.step (.resize ⟨1⟩ ⟨1, 0, 4, toEnd⟩) (legal_of_gray (.inr rfl))
  have hmakers : ([] ++ (Action.alloc grayManager 4 2).makers .empty ++
      (Action.alloc grayManager 6 2).makers ((Action.alloc grayManager 4 2).apply .empty) ++
        (Action.resize ⟨1⟩ ⟨1, 0, 4, toEnd⟩).makers ((Action.alloc grayManager 6 2).apply
          ((Action.alloc grayManager 4 2).apply .empty))) = [grayManager, grayManager] := by
    decide +kernel
  exact hmakers ▸ hthird

end Heap

end Planar
