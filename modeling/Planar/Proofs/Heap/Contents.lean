import Planar.Proofs.Heap.Admission
set_option autoImplicit false

/-!
What is in a copy: the rows of the overlap as the source shows them, and zeros everywhere else. The
source only lends its bytes.
-/

namespace Planar

variable {s : Storage} {k : Manager} {plane : PlaneStore} {r : Region} {hsize vsize i : Nat}
  {parts : List (PlaneFormat × (Nat → Nat → UInt8))}

/-! ### Blank bytes -/

theorem Storage.MadeBy.plane?_of_mem (hs : s.MadeBy k) (hk : k.Sound) (hp : plane ∈ s.planes) :
    s.plane? plane.chroma = some plane :=
  find?_of_nodup (hs.names hk) hp

theorem Manager.plane?_blankStorage (hk : k.Sound) {f : PlaneFormat} (hf : f ∈ k.format.planes) :
    (k.blankStorage hsize vsize).plane? f.chroma =
      some (k.blankPlane (k.totalH hsize) (k.totalV vsize) f) := by
  have hn : ((k.blankStorage hsize vsize).planes.map PlaneStore.chroma).Nodup := by
    simpa [blankStorage, Function.comp_def, blankPlane] using hk.format.names
  exact Storage.find?_of_nodup hn (List.mem_map_of_mem hf)

theorem PlaneStore.getElem?_of_byte (hi : i < plane.data.size) (hb : plane.byte 0 i = 0) :
    plane.data[i]? = some 0 := by
  unfold byte Bytes.byte at hb
  rw [Nat.zero_mul, Nat.zero_add, Array.getElem?_eq_getElem hi] at hb
  rw [Array.getElem?_eq_getElem hi]
  exact congrArg some hb

namespace Storage

theorem SameAround.getElem?_blank (ha : (k.blankStorage hsize vsize).SameAround s r)
    (hs : s.MadeBy k) (hk : k.Sound) (hp : plane ∈ s.planes) (hi : i < plane.data.size)
    (hc : ¬ (plane.desc.span r s.macropixel).Covers i) : plane.data[i]? = some 0 := by
  obtain ⟨data, hfound, hlen, hsame⟩ := ha.planes _ _ (Manager.plane?_blankStorage hk (hs.format_mem hp))
  have hplane := Option.some.inj ((hs.plane?_of_mem hk hp).symm.trans hfound)
  have hdesc := congrArg PlaneStore.desc hplane
  have hdata : plane.data = data := congrArg PlaneStore.data hplane
  rw [hdesc, hs.macropixel] at hc
  rw [hdata, hlen] at hi
  rw [hdata, hsame i hc]
  unfold Manager.blankPlane at hi ⊢
  rw [Array.size_replicate] at hi
  rw [Array.getElem?_replicate, if_pos hi]

theorem PaintsAll.getElem?_blank (ha : (k.blankStorage hsize vsize).PaintsAll s k r parts)
    (hk : k.Sound) (hp : plane ∈ s.planes) (hi : i < plane.data.size)
    (hc : plane.chroma ∉ parts.map (·.1.chroma)) : plane.data[i]? = some 0 := by
  have hbytes := ha.elsewhere plane.chroma hc
  rw [byte_of_plane? (ha.made.plane?_of_mem hk hp), Manager.byte_blankStorage] at hbytes
  exact PlaneStore.getElem?_of_byte hi (congrFun (congrFun hbytes 0) i)

end Storage

namespace Heap

variable {makers : List Manager} {h t : Heap} {p c : Handle} {src dst : Picture} {s s' : Storage}
  {m : Manager} {raw : RawResize} {request : ResizeRequest}

theorem chroma_copiedParts (o : Overlap) (fs : List PlaneFormat) :
    (copiedParts src s m o fs).map (·.1.chroma) = fs.map PlaneFormat.chroma := by
  simp [copiedParts]

/-- A copy is a new picture of the new size, at the margins of its manager, and nobody else has its
storage. In every plane of the source it shows the rows of the overlap, and all its other bytes are zero.
The source is as it was. -/
theorem copy_contents (hr : Reachable makers h) (hk : k.Built)
    (hskips : -2 ^ 62 < raw.hskip ∧ -2 ^ 62 < raw.vskip) (hcopy : copy k p raw h = (.ok c, t)) :
    ∃ request src dst s s', normalizeResize p raw h = .ok request ∧
      h.find p = .ok (src, s) ∧ t.find p = .ok (src, s) ∧
      t.find c = .ok (dst, s') ∧ s'.MadeBy k ∧
      dst = ⟨h.storages.size, k.window request.newHsize request.newVsize, 0⟩ ∧
      t.size c = .ok ⟨request.newHsize, request.newVsize, request.size.macropixel⟩ ∧
      t.refCount c = 1 ∧
      (∀ chroma ∈ h.planes p, ∃ rows, h.Reads p chroma (.ofRegion request.overlap.src) rows ∧
        t.Reads c chroma (.ofRegion request.overlap.dst) rows) ∧
      ∀ plane ∈ s'.planes, ∀ i < plane.data.size,
        (plane.chroma ∈ h.planes p → ¬ (dst.span s' plane request.overlap.dst).Covers i) →
          plane.data[i]? = some 0 := by
  obtain ⟨stop, hfail⟩ | ⟨src, -, -, hp, -⟩ := copy_cases k p raw h
  · cases hfail.symm.trans hcopy
  obtain ⟨s, m, hh⟩ := hr.sound.holds hp
  obtain ⟨request, hn, -⟩ := copy_eq_ok.mp hcopy
  obtain ⟨request', s', hn', -, rfl, hc, hall, haround⟩ :=
    filled_of_copy hh hk.sound (signed_skips hh hn hskips) hcopy
  cases hn.symm.trans hn'
  have hfresh := hc.apart.destination
  have hsize := size_of_find hfresh.find
  simp only [Picture.visible, hc.hsize, hc.vsize, hfresh.made.macropixel, hc.formats.macropixel',
    ← hc.formats.macropixel] at hsize
  refine ⟨request, src, _, s, s', hn, hh.find, hc.apart.source.find, hfresh.find, hfresh.made, rfl, hsize,
    (refCount_eq hfresh.picture?).trans hc.apart.sole, ?_, ?_⟩
  · intro chroma hchroma
    rw [hh.chromas] at hchroma
    obtain ⟨f, hf, rfl⟩ := List.mem_map.mp hchroma
    exact ⟨_, hc.reads_overlap hh hf⟩
  · intro plane hplane i hi hcovers
    by_cases hchroma : plane.chroma ∈ h.planes p
    · exact haround.getElem?_blank hfresh.made hk.sound hplane hi (hcovers hchroma)
    · refine hall.getElem?_blank hk.sound hplane hi ?_
      rw [chroma_copiedParts, ← hh.chromas]
      exact hchroma

def filledGray : Heap := applyAll [.readPacked ⟨0⟩ [1, 2, 3, 4, 5, 6, 7, 8]] tallGray

theorem reachable_filledGray : Reachable [grayManager] filledGray :=
  have hm : [grayManager] ++ (Action.readPacked ⟨0⟩ [1, 2, 3, 4, 5, 6, 7, 8]).makers tallGray =
      [grayManager] := by decide +kernel
  hm ▸ .step (.readPacked ⟨0⟩ [1, 2, 3, 4, 5, 6, 7, 8]) (legal_of_gray (.inr rfl)) reachable_tallGray

theorem filledGray_copied :
    let copied := (copy colorManager (⟨0⟩ : Handle) ⟨-2, 0, 6, toEnd⟩ filledGray).2
    copied.refCount ⟨1⟩ = 1 ∧
      copied.Reads ⟨1⟩ "y8" (.ofRegion ⟨2, 0, 4, 2⟩) [[1, 2, 3, 4], [5, 6, 7, 8]] := by
  have hcopy : copy colorManager (⟨0⟩ : Handle) ⟨-2, 0, 6, toEnd⟩ filledGray =
      (.ok ⟨1⟩, (copy colorManager (⟨0⟩ : Handle) ⟨-2, 0, 6, toEnd⟩ filledGray).2) :=
    Prod.ext (by decide +kernel) rfl
  obtain ⟨request, src, dst, s, s', hn, -, -, -, -, -, -, hsole, hrows, -⟩ :=
    copy_contents reachable_filledGray built_colorManager (by decide) hcopy
  have hrequest : normalizeResize (⟨0⟩ : Handle) ⟨-2, 0, 6, toEnd⟩ filledGray =
      .ok ⟨-2, 0, 6, 2, ⟨4, 2, 1⟩⟩ := by decide +kernel
  cases hrequest.symm.trans hn
  obtain ⟨rows, hsource, hcopied⟩ := hrows "y8" (by decide +kernel)
  have hread : ((planeRead (⟨0⟩ : Handle) "y8" (.ofRegion ⟨0, 0, 4, 2⟩) filledGray).1 >>= View.rows) =
      .ok [[1, 2, 3, 4], [5, 6, 7, 8]] := by decide +kernel
  cases hread.symm.trans (Except.bind_eq_ok.mpr hsource)
  exact ⟨hsole, hcopied⟩

end Heap

end Planar
