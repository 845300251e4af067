import Planar.Proofs.Grid.Multiples
import Planar.Proofs.Heap.Admission
import Planar.Proofs.Heap.RoundTrip
import Planar.Proofs.Heap.Transfer
set_option autoImplicit false

/-!
Packed images are read as a whole or not at all. The picture is asked for each plane anew, but what
it answers for the first one it answers for all of them.
-/

namespace Planar.Heap

variable {makers : List Manager} {h t : Heap} {p : Handle} {picture : Picture} {s : Storage}
  {m : Manager} {size : Size} {bytes rest : List UInt8}

/-- The picture has this size, and every row of every plane has bytes. -/
structure Solid (h : Heap) (p : Handle) (size : Size) : Prop where
  sized : h.size p = .ok size
  wide : ∀ chroma ∈ h.planes p, ∀ desc, h.planeDesc p chroma = .ok desc →
    0 < desc.rowBytes size.hsize size.macropixel

structure Writable (h : Heap) (picture : Picture) : Prop where
  sole : h.refs picture.storage = 1
  signed : picture.window.hsize ≤ Word.maxSigned ∧ picture.window.vsize ≤ Word.maxSigned

/-- A plane that cannot be written is refused before its first row. -/
theorem unpackPlane_of_not_writable (hh : Holds h p picture s m) (hw : ¬ Writable h picture)
    (bytes : List UInt8) (chroma : String) :
    ∃ why, unpackPlane p bytes chroma h = (.error (.fault why), h) := by
  obtain ⟨r, hr⟩ | ⟨why, hr⟩ := Stop.ok_or_fault (normalizeRegion_ne_crash hh.find chroma .full)
  · have hshared : h.refs picture.storage ≠ 1 := fun hone => hw ⟨hone, signed_of_normalize hh hr⟩
    obtain ⟨plane, v, hmap⟩ := exists_mapping hh hr
    exact ⟨_, Op.bind_of_error (planeWrite_of_shared hh hshared hr hmap)⟩
  · exact ⟨why, Op.bind_of_error (planeWrite_of_error hr)⟩

theorem writable_of_unpackPlane (hh : Holds h p picture s m) {chroma : String}
    (hrun : unpackPlane p bytes chroma h = (.ok rest, t)) : Writable h picture := by
  by_contra hw
  obtain ⟨why, hfail⟩ := unpackPlane_of_not_writable hh hw bytes chroma
  cases hrun.symm.trans hfail

theorem readPacked_of_not_writable (hh : Holds h p picture s m) (hw : ¬ Writable h picture)
    (hn : packedLen p h = .ok bytes.length) :
    ∃ why, readPacked p bytes h = (.error (.fault why), h) := by
  -- the first plane stands for all of them
  obtain ⟨f, fs, hfs⟩ := List.exists_cons_of_ne_nil hh.manager.format.nonempty
  obtain ⟨why, hfail⟩ := unpackPlane_of_not_writable hh hw bytes f.chroma
  refine ⟨why, ?_⟩
  rw [readPacked_run hn, hh.chromas, hfs, List.map_cons, List.foldlM_cons]
  exact Op.bind_of_error (Op.bind_of_error hfail)

theorem Solid.packable (hd : Solid h p size) (hh : Holds h p picture s m) (hx : m.format.Exact)
    (hw : Writable h picture) : Packable picture m := by
  obtain rfl := Except.ok.inj (hh.size_eq.symm.trans hd.sized)
  exact ⟨hw.signed, hh.sampled hx, hh.width_pos hd.wide⟩

/-- Once some planes are written the others follow, and the image ends with the last one. -/
theorem foldlM_unpackPlane_rest (hh : Holds h p picture s m) (hw : Writable h picture)
    (hs : Packable picture m) (hn : packedLen p h = .ok bytes.length) {before after : List String}
    (hplanes : planes p h = before ++ after)
    (hrun : before.foldlM (unpackPlane p) bytes h = (.ok rest, t)) :
    ∃ u, after.foldlM (unpackPlane p) rest t = (.ok [], u) := by
  have hlen : bytes.length = (m.format.planes.map fun f => f.area (shown picture m)).sum :=
    ((packedLen_eq_ok hh).mp hn).1
  obtain ⟨s', hall, -⟩ := foldlM_unpackPlane m.format.planes hh hw.sole hs (fun _ hf => hf)
    hh.manager.format.names (Nat.le_of_eq hlen.symm)
  rw [← hh.chromas, hplanes, List.foldlM_append, Op.bind_of_ok hrun, ← hlen, List.drop_length] at hall
  exact ⟨_, hall⟩

theorem readPacked_ends (hh : Holds h p picture s m) (hx : m.format.Exact) (hd : Solid h p size)
    (bytes : List UInt8) :
    ((packedLen p h = .ok bytes.length ∧ Writable h picture) ∧
        ∃ t, readPacked p bytes h = (.ok (), t)) ∨
      (¬ (packedLen p h = .ok bytes.length ∧ Writable h picture) ∧
        ∃ why, readPacked p bytes h = (.error (.fault why), h)) := by
  by_cases hn : packedLen p h = .ok bytes.length
  · by_cases hw : Writable h picture
    · obtain ⟨s', hrun, -⟩ := fills_of_holds hh hw.sole (hd.packable hh hx hw) hn
      exact .inl ⟨⟨hn, hw⟩, _, hrun⟩
    · exact .inr ⟨fun hboth => hw hboth.2, readPacked_of_not_writable hh hw hn⟩
  · exact .inr ⟨fun hboth => hn hboth.1, readPacked_of_ne hh hn⟩

theorem Solid.writable_iff (hd : Solid h p size) (hh : Holds h p picture s m) :
    Writable h picture ↔
      h.refCount p = 1 ∧ size.hsize ≤ Word.maxSigned ∧ size.vsize ≤ Word.maxSigned := by
  obtain rfl := Except.ok.inj (hh.size_eq.symm.trans hd.sized)
  rw [refCount_eq hh.picture?]
  exact ⟨fun hw => ⟨hw.sole, hw.signed⟩, fun hw => ⟨hw.1, hw.2⟩⟩

/-- One row of as many columns as the grid tells. -/
def crowdedPicture : Heap :=
  applyAll [.alloc (.build .crowded { format := .custom .crowded, align := 1 }) 896 1] .empty

/-- Where the grid has wrapped around, the second plane is refused after the first one was written. -/
example : packedLen (⟨0⟩ : Handle) crowdedPicture = .ok 371 ∧
    (readPacked (⟨0⟩ : Handle) (List.replicate 371 1) crowdedPicture).1 =
      .error (.fault (.misaligned "hsize" 896 13)) ∧
    ((readPacked (⟨0⟩ : Handle) (List.replicate 371 1) crowdedPicture).2.storage? ⟨0⟩).map
      (·.byte "128" 0 0) = some 1 := by decide +kernel

end Planar.Heap
