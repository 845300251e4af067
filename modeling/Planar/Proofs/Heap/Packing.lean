import Planar.Proofs.Heap.Margins
set_option autoImplicit false

/-!
Packed images in and out of a picture. Reading paints the window of every plane and writing
collects it; neither leaves anything else behind.
-/

namespace Planar

/-- What the window of a plane shows, row after row. -/
def PlaneFormat.collect (f : PlaneFormat) (macropixel : Nat) (window : Region)
    (see : String → Nat → Nat → UInt8) : List (List UInt8) :=
  (List.range (f.rows window.vsize)).map fun y =>
    (List.range (f.width macropixel window.hsize)).map (f.shows macropixel window see y)

/-- A window that ends between the samples of every plane. -/
structure Region.Sampled (w : Region) (format : PictureFormat) : Prop where
  macropixel : format.macropixel ∣ w.hsize
  hsub : ∀ f ∈ format.planes, f.hsub ∣ w.hsize
  vsub : ∀ f ∈ format.planes, f.vsub ∣ w.vsize

namespace Heap

variable {h : Heap} {p : Handle} {picture : Picture} {s : Storage} {m : Manager}
  {f : PlaneFormat} {bytes : List UInt8}

/-- The sizes that a packed image can have: signed, without half samples, with bytes in every row. -/
structure Packable (picture : Picture) (m : Manager) : Prop where
  signed : picture.window.hsize ≤ Word.maxSigned ∧ picture.window.vsize ≤ Word.maxSigned
  sampled : picture.window.Sampled m.format
  width_pos : ∀ f ∈ m.format.planes, 0 < f.width m.format.macropixel picture.window.hsize

def shown (picture : Picture) (m : Manager) : Size :=
  ⟨picture.window.hsize, picture.window.vsize, m.format.macropixel⟩

theorem Holds.size_eq (hh : Holds h p picture s m) : h.size p = .ok (shown picture m) := by
  rw [size_of_find hh.find, Picture.visible, hh.made.macropixel]
  rfl

/-- If no grid has wrapped around, every window ends between samples. -/
theorem Holds.sampled (hh : Holds h p picture s m) (hx : m.format.Exact) :
    picture.window.Sampled m.format := by
  have hcols := (PictureFormat.hgrid_dvd_iff hh.manager.format hx _).mp (hh.made.hgrid ▸ hh.held.hsize)
  have hrows := (PictureFormat.vgrid_dvd_iff hh.manager.format hx _).mp (hh.made.vgrid ▸ hh.held.vsize)
  exact ⟨hcols.1, hcols.2, hrows⟩

theorem normalize_full (hh : Holds h p picture s m) (hf : f ∈ m.format.planes) {r : Region} :
    normalizeRegion p f.chroma .full h = .ok r ↔
      r = ⟨0, 0, picture.window.hsize, picture.window.vsize⟩ ∧
        (picture.window.hsize ≤ Word.maxSigned ∧ picture.window.vsize ≤ Word.maxSigned) ∧
          m.format.macropixel ∣ picture.window.hsize ∧ f.hsub ∣ picture.window.hsize ∧
            f.vsub ∣ picture.window.vsize := by
  rw [hh.normalize_iff hf, RawRegion.resolve_full, Nat.max_eq_left hh.manager.format.macropixel_pos]
  constructor
  · intro hgiven
    obtain ⟨⟨rfl, hs, hmac⟩, hr⟩ := hgiven
    exact ⟨rfl, hs, hmac, hr.hsize, hr.vsize⟩
  · rintro ⟨rfl, hs, hmac, hhsub, hvsub⟩
    exact ⟨⟨rfl, hs, hmac⟩, Nat.dvd_zero _, hhsub, Nat.dvd_zero _, hvsub⟩

theorem full_of_normalize (hh : Holds h p picture s m) (hf : f ∈ m.format.planes) {raw : RawRegion}
    (hn : normalizeRegion p f.chroma raw h =
      .ok ⟨0, 0, picture.window.hsize, picture.window.vsize⟩) :
    normalizeRegion p f.chroma .full h =
      .ok ⟨0, 0, picture.window.hsize, picture.window.vsize⟩ := by
  obtain ⟨hraw, hsamples⟩ := (hh.normalize_iff hf).mp hn
  have haccepted := RawRegion.accepted_of_resolve hraw
  have hpixels := haccepted.hsize
  rw [Nat.max_eq_left hh.manager.format.macropixel_pos] at hpixels
  exact (normalize_full hh hf).mpr ⟨rfl, haccepted.signed, hpixels, hsamples.hsize, hsamples.vsize⟩

theorem Packable.normalize (hs : Packable picture m) (hh : Holds h p picture s m)
    (hf : f ∈ m.format.planes) :
    normalizeRegion p f.chroma .full h =
      .ok ⟨0, 0, picture.window.hsize, picture.window.vsize⟩ :=
  (normalize_full hh hf).mpr
    ⟨rfl, hs.signed, hs.sampled.macropixel, hs.sampled.hsub f hf, hs.sampled.vsub f hf⟩

theorem exists_fullMapping (hh : Holds h p picture s m) (hf : f ∈ m.format.planes) {r : Region}
    (hn : normalizeRegion p f.chroma .full h = .ok r) :
    ∃ plane v, plane.format = f ∧ Mapping picture s f.chroma r plane v ∧
      v.shape.rows = f.rows picture.window.vsize ∧
        v.shape.rowBytes = f.width m.format.macropixel picture.window.hsize := by
  obtain ⟨plane, v, hformat, hmap⟩ := exists_formatMapping hh hf hn
  have hrows := hmap.rows_format hh.manager hh.made
  have hcols := hmap.width_format hh.manager hh.made
  obtain ⟨rfl, -⟩ := (normalize_full hh hf).mp hn
  rw [hformat] at hrows hcols
  exact ⟨plane, v, hformat, hmap, hrows, hcols⟩

theorem reads_of_whole (hh : Holds h p picture s m) (hf : f ∈ m.format.planes) {raw : RawRegion}
    {r : Region} (hn : normalizeRegion p f.chroma raw h = .ok r) (ht : ¬ h.TornAt p f.chroma r) :
    h.Reads p f.chroma raw (f.collect m.format.macropixel (picture.absolute r) s.byte) := by
  obtain ⟨plane, v, hformat, hmap⟩ := exists_formatMapping hh hf hn
  have hrows := hmap.rows_format hh.manager hh.made
  have hcols := hmap.width_format hh.manager hh.made
  rw [hformat] at hrows hcols
  rw [tornAt_iff hh.find hmap] at ht
  refine ⟨v, by rw [planeRead_of_mapping hh hn hmap], ?_⟩
  rw [View.rows_of_whole (hmap.whole ht), hrows]
  congr 1
  apply List.map_congr_left
  intro y hy
  rw [View.line, hcols]
  apply List.map_congr_left
  intro c hc
  rw [List.mem_range] at hy hc
  rw [hmap.byte_format hh.manager hh.made (hrows ▸ hy) (hcols ▸ hc), hformat]

section

variable {chroma : String} {r : Region} {plane : PlaneStore} {v : View}

theorem unpackPlane_of_whole (hh : Holds h p picture s m) (hr : h.refs picture.storage = 1)
    (hn : normalizeRegion p chroma .full h = .ok r) (hmap : Mapping picture s chroma r plane v)
    (hw : v.shape.Whole) (hlen : v.shape.rows * v.shape.rowBytes ≤ bytes.length) :
    ∃ w, View.Painted v.shape.rows (View.packedByte bytes v.shape.rowBytes) v w ∧
      unpackPlane p bytes chroma h = (.ok (bytes.drop (v.shape.rows * v.shape.rowBytes)),
        h.store picture.storage (s.write chroma (picture.span s plane r).offset w)) := by
  obtain ⟨w, hunpack, hpaint⟩ := View.unpackRows_of_le hw hlen
  refine ⟨w, hpaint, ?_⟩
  unfold unpackPlane
  refine (Op.bind_of_ok (planeWrite_of_mapping hh hr hn hmap)).trans ?_
  refine (Op.bind_of_ok (Op.liftStop_of_ok hunpack _)).trans ?_
  refine (Op.bind_of_ok (Op.update_run _ _)).trans ?_
  exact Op.bind_of_ok (commit_back hh hn hmap w)

theorem unpackPlane_of_torn (hh : Holds h p picture s m) (hr : h.refs picture.storage = 1)
    (hn : normalizeRegion p chroma .full h = .ok r) (hmap : Mapping picture s chroma r plane v)
    (ht : v.shape.Torn) : (unpackPlane p bytes chroma).Crashes h := by
  unfold unpackPlane
  rw [Op.crashes_bind_of_ok (planeWrite_of_mapping hh hr hn hmap)]
  apply Op.Crashes.bind
  rw [Op.Crashes, Op.liftStop_run, View.unpackRows_of_torn ht]

theorem packPlane_of_whole (hh : Holds h p picture s m)
    (hn : normalizeRegion p chroma .full h = .ok r) (hmap : Mapping picture s chroma r plane v)
    (hw : v.shape.Whole) (packed : List (List UInt8)) :
    packPlane p packed chroma h = (.ok (packed ++ (List.range v.visits).map v.line), h) := by
  unfold packPlane
  refine (Op.bind_of_ok (planeRead_of_mapping hh hn hmap)).trans ?_
  refine (Op.bind_of_ok (Op.liftStop_of_ok (View.visitedRows_of_whole hw) _)).trans ?_
  exact Op.bind_of_ok (planeUnmap_back hh hn)

theorem packPlane_of_torn (hh : Holds h p picture s m)
    (hn : normalizeRegion p chroma .full h = .ok r) (hmap : Mapping picture s chroma r plane v)
    (ht : v.shape.Torn) (packed : List (List UInt8)) : (packPlane p packed chroma).Crashes h := by
  unfold packPlane
  rw [Op.crashes_bind_of_ok (planeRead_of_mapping hh hn hmap)]
  apply Op.Crashes.bind
  rw [Op.Crashes, Op.liftStop_run, View.visitedRows_of_torn ht]

end

theorem unpackPlane_of_holds (hh : Holds h p picture s m) (hr : h.refs picture.storage = 1)
    (hf : f ∈ m.format.planes) (hs : Packable picture m)
    (hlen : f.area (shown picture m) ≤ bytes.length) :
    ∃ s', unpackPlane p bytes f.chroma h =
        (.ok (bytes.drop (f.area (shown picture m))), h.store picture.storage s') ∧
      s.Paints s' m f (f.block m.format.macropixel picture.window)
        (View.packedByte bytes (f.width m.format.macropixel picture.window.hsize)) ∧
      s.SameAround s' picture.window := by
  have hn := hs.normalize hh hf
  obtain ⟨plane, v, hformat, hmap, hrows, hcols⟩ := exists_fullMapping hh hf hn
  have hregular := hmap.regular (hcols ▸ hs.width_pos _ hf)
  have harea : v.shape.rows * v.shape.rowBytes = f.area (shown picture m) := by
    rw [hrows, hcols]
    rfl
  obtain ⟨w, hpaint, hrun⟩ := unpackPlane_of_whole hh hr hn hmap hregular.whole (harea ▸ hlen)
  have hpaints := hmap.paints hh.manager hh.made hpaint
  rw [hformat, hcols, hh.made.macropixel] at hpaints
  exact ⟨_, harea ▸ hrun, hpaints, hmap.sameAround hpaint⟩

theorem packPlane_of_reads (hh : Holds h p picture s m) {chroma : String} {rows : List (List UInt8)}
    (hr : h.Reads p chroma .full rows) (packed : List (List UInt8)) :
    ∃ packed', packPlane p packed chroma h = (.ok packed', h) ∧
      packed'.flatten = packed.flatten ++ rows.flatten := by
  obtain ⟨v, hread, hrows⟩ := hr
  obtain ⟨visited, hvisited, hpad⟩ := Except.bind_eq_ok.mp hrows
  cases hpad
  cases hn : normalizeRegion p chroma .full h with
  | error stop =>
    unfold planeRead at hread
    rw [Op.bind_run, Op.ask_run, hn] at hread
    cases hread
  | ok r =>
    obtain ⟨plane, v', hmap⟩ := exists_mapping hh hn
    have hmapped := planeRead_of_mapping hh hn hmap
    rw [hmapped] at hread
    cases hread
    refine ⟨packed ++ visited, ?_, by simp⟩
    unfold packPlane
    refine (Op.bind_of_ok hmapped).trans ?_
    refine (Op.bind_of_ok (Op.liftStop_of_ok hvisited _)).trans ?_
    exact Op.bind_of_ok (planeUnmap_back hh hn)

/-! ### All planes -/

theorem Holds.chromas (hh : Holds h p picture s m) :
    planes p h = m.format.planes.map PlaneFormat.chroma := by
  have hs : h.storage? p = some s := (storage?_eq hh.picture?).trans hh.stored?
  unfold planes
  rw [hs, ← hh.made.planes, List.map_map]
  rfl

theorem addPlane_of_holds (hh : Holds h p picture s m) (hf : f ∈ m.format.planes) (total : Nat) :
    addPlane p (picture.visible s) h total f.chroma =
      if total + f.area (shown picture m) > Word.maxUnsigned then
        .error (.fault (.invalid .packedOverflow))
      else .ok (total + f.area (shown picture m)) := by
  obtain ⟨plane, hp, rfl⟩ := hh.made.plane? hh.manager hf
  have hfactors := hh.made.factors hh.manager plane (Storage.mem_of_plane? hp).1
  have hlen : plane.desc.rowBytes picture.window.hsize s.macropixel *
      plane.desc.rows picture.window.vsize = plane.format.area (shown picture m) := by
    rw [PlaneStore.rows_format hfactors.2.1, PlaneStore.width_format hfactors.1 hh.macropixel_pos,
      hh.made.macropixel, Nat.mul_comm]
    rfl
  unfold addPlane
  simp only [Buffers.planeDesc, planeDesc_of_find hh.find hp, bind, Except.bind, Picture.visible,
    hlen]
  split <;> rfl

theorem foldlM_addPlane (hh : Holds h p picture s m) (fs : List PlaneFormat)
    (hf : ∀ f ∈ fs, f ∈ m.format.planes) {total n : Nat} (ht : total ≤ Word.maxUnsigned) :
    (fs.map PlaneFormat.chroma).foldlM (addPlane p (picture.visible s) h) total = .ok n ↔
      n = total + (fs.map fun f => f.area (shown picture m)).sum ∧ n ≤ Word.maxUnsigned := by
  -- the sums only grow, so that the last one tells whether one of them was too large
  induction fs generalizing total with
  | nil =>
    simp only [List.map_nil, List.foldlM_nil, pure, Except.pure, Except.ok.injEq, List.sum_nil]
    omega
  | cons f fs ih =>
    rw [List.map_cons, List.foldlM_cons, addPlane_of_holds hh (hf f List.mem_cons_self),
      List.map_cons, List.sum_cons, ← Nat.add_assoc]
    split
    · rename_i hover
      constructor
      · intro hn
        cases hn
      · omega
    · rename_i hfits
      exact ih (fun g hg => hf g (List.mem_cons_of_mem f hg)) (by omega)

theorem packedLen_eq_ok (hh : Holds h p picture s m) {n : Nat} :
    packedLen p h = .ok n ↔ n = m.format.packedLen (shown picture m) ∧ n ≤ Word.maxUnsigned := by
  have hfold := foldlM_addPlane hh m.format.planes (fun _ hf => hf) (n := n) (Nat.zero_le _)
  rw [Nat.zero_add] at hfold
  unfold packedLen
  simp only [Buffers.size, size_of_find hh.find, bind, Except.bind, Buffers.planes, hh.chromas]
  exact hfold

theorem packedLen_of_holds (hh : Holds h p picture s m)
    (hlen : m.format.packedLen (shown picture m) ≤ Word.maxSigned) :
    packedLen p h = .ok (m.format.packedLen (shown picture m)) := by
  have hw : Word.maxSigned ≤ Word.maxUnsigned := by decide
  exact (packedLen_eq_ok hh).mpr ⟨rfl, Nat.le_trans hlen hw⟩

theorem packedLen_ne_crash (hh : Holds h p picture s m) : packedLen p h ≠ .error .crash := by
  unfold packedLen
  simp only [Buffers.size, size_of_find hh.find, bind, Except.bind, Buffers.planes, hh.chromas]
  apply Stop.foldlM_ne_error
  intro total chroma hchroma
  obtain ⟨f, hf, rfl⟩ := List.mem_map.mp hchroma
  rw [addPlane_of_holds hh hf]
  split <;> exact nofun

theorem readPacked_run (hn : packedLen p h = .ok bytes.length) :
    readPacked p bytes h = ((planes p h).foldlM (unpackPlane p) bytes >>= fun _ => pure ()) h := by
  unfold readPacked
  rw [Op.bind_run, Op.ask_run, hn]
  simp only [Op.check_run, ne_eq, not_true_eq_false, if_false]
  exact Op.bind_of_ok (Op.ask_run _ h)

theorem foldlM_unpackPlane (fs : List PlaneFormat) (hh : Holds h p picture s m)
    (hr : h.refs picture.storage = 1) (hs : Packable picture m)
    (hf : ∀ f ∈ fs, f ∈ m.format.planes) (hn : (fs.map PlaneFormat.chroma).Nodup)
    (hlen : (fs.map fun f => f.area (shown picture m)).sum ≤ bytes.length) :
    ∃ s', (fs.map PlaneFormat.chroma).foldlM (unpackPlane p) bytes h =
        (.ok (bytes.drop (fs.map fun f => f.area (shown picture m)).sum),
          h.store picture.storage s') ∧
      s.PaintsAll s' m picture.window (packedParts (shown picture m) fs bytes) ∧
      s.SameAround s' picture.window := by
  induction fs generalizing h s bytes with
  | nil =>
    refine ⟨s, ?_, .nil hh.made, .refl s _⟩
    rw [store_self hh.stored?]
    rfl
  | cons f fs ih =>
    rw [List.map_cons, List.sum_cons] at hlen
    rw [List.map_cons, List.nodup_cons] at hn
    have hfirst : f.area (shown picture m) ≤ bytes.length := by omega
    have hafter : (fs.map fun f => f.area (shown picture m)).sum ≤
        (bytes.drop (f.area (shown picture m))).length := by
      rw [List.length_drop]
      omega
    obtain ⟨s₁, hrun, hpaints, haround⟩ :=
      unpackPlane_of_holds hh hr (hf f List.mem_cons_self) hs hfirst
    obtain ⟨s', hrest, hall, haround'⟩ := ih (hh.store hpaints.made hpaints.hsize hpaints.vsize)
      (by rw [refs_store, hr]) (fun g hg => hf g (List.mem_cons_of_mem f hg)) hn.2 hafter
    rw [store_store, List.drop_drop] at hrest
    refine ⟨s', ?_, .cons hh.made hpaints hall ?_, haround.trans haround'⟩
    · rw [List.map_cons, List.foldlM_cons, List.map_cons, List.sum_cons]
      exact (Op.bind_of_ok hrun).trans hrest
    · rw [chroma_packedParts]
      exact hn.1

/-- A packed image of the right length fills the window of every plane, and nothing else. -/
theorem fills_of_holds (hh : Holds h p picture s m) (hr : h.refs picture.storage = 1)
    (hs : Packable picture m) (hn : packedLen p h = .ok bytes.length) :
    ∃ s', readPacked p bytes h = (.ok (), h.store picture.storage s') ∧
      s.PaintsAll s' m picture.window (packedParts (shown picture m) m.format.planes bytes) ∧
      s.SameAround s' picture.window := by
  have hlen := ((packedLen_eq_ok hh).mp hn).1
  obtain ⟨s', hrun, hall⟩ := foldlM_unpackPlane m.format.planes hh hr hs (fun _ hf => hf)
    hh.manager.format.names (Nat.le_of_eq hlen.symm)
  refine ⟨s', ?_, hall⟩
  rw [readPacked_run hn, hh.chromas]
  exact Op.bind_of_ok hrun

theorem readPacked_of_holds (hh : Holds h p picture s m) (hr : h.refs picture.storage = 1)
    (hs : Packable picture m) (hn : packedLen p h = .ok bytes.length) :
    ∃ s', readPacked p bytes h = (.ok (), h.store picture.storage s') ∧
      s.PaintsAll s' m picture.window (packedParts (shown picture m) m.format.planes bytes) := by
  obtain ⟨s', hrun, hall, -⟩ := fills_of_holds hh hr hs hn
  exact ⟨s', hrun, hall⟩

/-! ### Writing -/

theorem writePacked_run {n : Nat} (hn : packedLen p h = .ok n) (hsmall : n ≤ Word.maxSigned) :
    writePacked p h =
      ((planes p h).foldlM (packPlane p) [] >>= fun rows => pure rows.flatten) h := by
  unfold writePacked
  rw [Op.bind_run, Op.ask_run, hn]
  simp only [Op.check_run, if_neg (Nat.not_lt.mpr hsmall)]
  exact Op.bind_of_ok (Op.ask_run _ h)

theorem foldlM_packPlane (fs : List PlaneFormat) (hh : Holds h p picture s m)
    {rows : PlaneFormat → List (List UInt8)} (hr : ∀ f ∈ fs, h.Reads p f.chroma .full (rows f))
    (packed : List (List UInt8)) :
    ∃ packed', (fs.map PlaneFormat.chroma).foldlM (packPlane p) packed h = (.ok packed', h) ∧
      packed'.flatten = packed.flatten ++ (fs.flatMap rows).flatten := by
  induction fs generalizing packed with
  | nil => exact ⟨packed, rfl, by simp⟩
  | cons f fs ih =>
    obtain ⟨packed₁, hrun, hbytes⟩ := packPlane_of_reads hh (hr f List.mem_cons_self) packed
    obtain ⟨packed', hrest, hall⟩ := ih (fun g hg => hr g (List.mem_cons_of_mem f hg)) packed₁
    refine ⟨packed', ?_, ?_⟩
    · rw [List.map_cons, List.foldlM_cons]
      exact (Op.bind_of_ok hrun).trans hrest
    · rw [hall, hbytes, List.flatMap_cons, List.flatten_append, List.append_assoc]

/-- A packed image is what the planes show in full. -/
theorem writePacked_of_reads (fs : List PlaneFormat) (hh : Holds h p picture s m)
    (hp : planes p h = fs.map PlaneFormat.chroma) {rows : PlaneFormat → List (List UInt8)}
    (hr : ∀ f ∈ fs, h.Reads p f.chroma .full (rows f)) {n : Nat} (hn : packedLen p h = .ok n)
    (hsmall : n ≤ Word.maxSigned) : writePacked p h = (.ok (fs.flatMap rows).flatten, h) := by
  obtain ⟨packed, hrun, hbytes⟩ := foldlM_packPlane fs hh hr []
  rw [List.flatten_nil, List.nil_append] at hbytes
  rw [writePacked_run hn hsmall, hp, ← hbytes]
  exact Op.bind_of_ok hrun

theorem reads_full (hh : Holds h p picture s m) (hs : Packable picture m) (hf : f ∈ m.format.planes) :
    h.Reads p f.chroma .full (f.collect m.format.macropixel picture.window s.byte) := by
  have hn := hs.normalize hh hf
  obtain ⟨plane, v, hformat, hmap, -, hcols⟩ := exists_fullMapping hh hf hn
  have hwhole : ¬ h.TornAt p f.chroma ⟨0, 0, picture.window.hsize, picture.window.vsize⟩ := by
    intro ht
    have hempty := ((tornAt_iff hh.find hmap).mp ht).1
    have hpos := hs.width_pos f hf
    omega
  exact (reads_of_whole hh hf hn hwhole :)

theorem writePacked_of_holds (hh : Holds h p picture s m) (hs : Packable picture m)
    (hlen : m.format.packedLen (shown picture m) ≤ Word.maxSigned) :
    writePacked p h = (.ok (m.format.planes.flatMap fun f =>
      f.collect m.format.macropixel picture.window s.byte).flatten, h) := by
  have hreads : ∀ f ∈ m.format.planes,
      h.Reads p f.chroma .full (f.collect m.format.macropixel picture.window s.byte) :=
    fun f hf => reads_full hh hs hf
  exact writePacked_of_reads m.format.planes hh hh.chromas hreads (packedLen_of_holds hh hlen) hlen

end Heap

end Planar
