import Planar.Proofs.Heap.Joining
set_option autoImplicit false

/-!
Copies of planes that both pictures have. All of them go over if every one can be cut where the
overlap is.
-/

namespace Planar.Heap

abbrev Pair (h : Heap) (p q : Handle) (src dst : Picture) (s t : Storage) (m : Manager) : Prop :=
  Apart h p q src dst s t m m

variable {h : Heap} {p q : Handle} {src dst : Picture} {s t : Storage} {m k : Manager}
  {f : PlaneFormat} {o : Overlap}

structure Cuts (h : Heap) (p q : Handle) (o : Overlap) (m : Manager) (f : PlaneFormat) : Prop where
  source : normalizeRegion p f.chroma (.ofRegion o.src) h = .ok o.src
  destination : normalizeRegion q f.chroma (.ofRegion o.dst) h = .ok o.dst
  hsize : o.src.hsize = o.dst.hsize
  vsize : o.src.vsize = o.dst.vsize
  width_pos : 0 < f.width m.format.macropixel o.dst.hsize

theorem Holds.planeDesc (hh : Holds h p src s m) (hf : f ∈ m.format.planes) :
    ∃ desc, planeDesc p f.chroma h = .ok desc ∧ desc.hsub = f.hsub ∧ desc.vsub = f.vsub ∧
      desc.macropixelSize = f.macropixelSize := by
  obtain ⟨plane, hp, rfl⟩ := hh.made.plane? hh.manager hf
  exact ⟨plane.desc, planeDesc_of_find hh.find hp, rfl, rfl, rfl⟩

theorem Holds.not_tornAt (hh : Holds h p src s m) (hf : f ∈ m.format.planes) {raw : RawRegion}
    {r : Region} (hn : normalizeRegion p f.chroma raw h = .ok r)
    (hpos : 0 < f.width m.format.macropixel r.hsize) : ¬ h.TornAt p f.chroma r := by
  obtain ⟨plane, v, hformat, hmap⟩ := exists_formatMapping hh hf hn
  have hcols := hmap.width_format hh.manager hh.made
  rw [hformat] at hcols
  rw [tornAt_iff hh.find hmap]
  intro ht
  have hempty := ht.1
  omega

theorem Cuts.joinsAt (hk : Cuts h p q o m f) (ha : Apart h p q src dst s t m k)
    (hm : k.format.macropixel = m.format.macropixel) (hf : f ∈ m.format.planes)
    (hf' : f ∈ k.format.planes) : JoinsAt h p q o f.chroma := by
  obtain ⟨desc, hdesc, hhs, hvs, hms⟩ := ha.source.planeDesc hf
  obtain ⟨desc', hdesc', hhs', hvs', hms'⟩ := ha.destination.planeDesc hf'
  have hsame : desc.sameSampling desc' = true := by
    simp [PlaneDesc.sameSampling, hhs, hvs, hms, hhs', hvs', hms']
  refine ⟨⟨⟨desc, desc', hdesc, hdesc', hsame⟩, hk.source, hk.destination⟩, ?_⟩
  rintro (ht | ht)
  · exact ha.source.not_tornAt hf hk.source (hk.hsize ▸ hk.width_pos) ht
  · exact ha.destination.not_tornAt hf' hk.destination (hm ▸ hk.width_pos) ht

theorem fillCopy_of_cuts (hc : Pair h p q src dst s t m) {request : ResizeRequest}
    (hm : request.size.macropixel = m.format.macropixel)
    (hk : ∀ f ∈ m.format.planes, Cuts h p q request.overlap m f) :
    ∃ t', fillCopy p q request h = (.ok q, h.store dst.storage t') ∧
      t.PaintsAll t' m (dst.absolute request.overlap.dst)
        (copiedParts src s m request.overlap m.format.planes) ∧
      t.SameAround t' (dst.absolute request.overlap.dst) :=
  fillCopy_of_joinsAt hc ⟨hm, rfl⟩ fun f hf => (hk f hf).joinsAt hc rfl hf hf

end Planar.Heap
