import Planar.Proofs.Heap.Bounds
import Planar.Proofs.Heap.Isolation
import Planar.Proofs.Heap.Pixels
import Planar.Proofs.Overwriting
set_option autoImplicit false

/-!
What a write through a mapping changes. Whoever reads the region again finds the new rows, wherever
the window went in between, and whoever reads beside it, or another plane, finds the old ones.
-/

namespace Planar

/-! ### Mappings of the same place -/

namespace Mapping

variable {a b : Picture} {s s' : Storage} {chroma : String} {r q : Region} {plane : PlaneStore}
  {data : Bytes} {v v' w : View}

theorem shape_of_place (hm : Mapping a s chroma r plane v)
    (hm' : Mapping b s' chroma q { plane with data } v') (hmac : s'.macropixel = s.macropixel)
    (hplace : b.absolute q = a.absolute r) : v'.shape = v.shape := by
  rw [hm.shape, hm'.shape, Picture.span, Picture.span, hplace, hmac]

theorem byte_of_place (hm : Mapping a s chroma r plane v)
    (hm' : Mapping b s' chroma q { plane with data } v') (hmac : s'.macropixel = s.macropixel)
    (hplace : b.absolute q = a.absolute r) {y c : Nat} (hy : y < v.shape.rows)
    (hc : c < v.shape.rowBytes) :
    v'.byte y c = ({ plane with data } : PlaneStore).byte
      (plane.desc.rows (a.window.voffset + r.voffset) + y)
        (plane.desc.rowBytes (a.window.hoffset + r.hoffset) s.macropixel + c) := by
  have hvoffset : b.window.voffset + q.voffset = a.window.voffset + r.voffset :=
    congrArg Region.voffset hplace
  have hhoffset : b.window.hoffset + q.hoffset = a.window.hoffset + r.hoffset :=
    congrArg Region.hoffset hplace
  have hshape := hm.shape_of_place hm' hmac hplace
  have hrows : y < plane.desc.rows q.vsize := by
    rw [← hshape, hm'.rows] at hy
    exact hy
  have hcols : c < plane.desc.rowBytes q.hsize s'.macropixel := by
    rw [← hshape, hm'.rowBytes] at hc
    exact hc
  rw [hm'.byte hrows hcols, hvoffset, hhoffset, hmac]

theorem sameRows (hm : Mapping a s chroma r plane v)
    (hm' : Mapping b s' chroma q { plane with data } v') (hmac : s'.macropixel = s.macropixel)
    (hplace : b.absolute q = a.absolute r)
    (hsame : ∀ y c, y < v.shape.rows → c < v.shape.rowBytes →
      let i := (plane.desc.rows (a.window.voffset + r.voffset) + y) * plane.desc.stride +
        (plane.desc.rowBytes (a.window.hoffset + r.hoffset) s.macropixel + c)
      data[i]? = plane.data[i]?) : v.SameRows v' := by
  refine View.SameRows.of_byte (hm.shape_of_place hm' hmac hplace) fun y c hy hc => ?_
  have hrows := hm.rows ▸ hy
  have hcols := hm.rowBytes ▸ hc
  rw [hm.byte_of_place hm' hmac hplace hy hc, hm.byte hrows hcols]
  unfold PlaneStore.byte Bytes.byte
  rw [hsame y c hy hc]

theorem rows_of_painted {inner : Nat → Nat → UInt8} (hm : Mapping a s chroma r plane v)
    (hm' : Mapping b s' chroma q
      { plane with data := w.putBack plane.data (a.span s plane r).offset } v')
    (hmac : s'.macropixel = s.macropixel) (hplace : b.absolute q = a.absolute r)
    (hpos : 0 < v.shape.rowBytes) (hp : View.Painted v.shape.rows inner v w) :
    v'.rows = .ok ((List.range v.shape.rows).map fun y =>
      (List.range v.shape.rowBytes).map (inner y)) := by
  have hshape := hm.shape_of_place hm' hmac hplace
  have hrows : v.shape.rows = (a.span s plane r).rows := by rw [hm.shape]
  have hcols : v.shape.rowBytes = (a.span s plane r).rowBytes := by rw [hm.shape]
  rw [View.rows_of_whole (hm'.regular (hshape ▸ hpos)).whole, hshape]
  congr 1
  apply List.map_congr_left
  intro y hy
  rw [List.mem_range] at hy
  rw [View.line, hshape]
  apply List.map_congr_left
  intro c hc
  rw [List.mem_range] at hc
  have hwidth := hm.lies.width
  rw [hm.byte_of_place hm' hmac hplace hy hc,
    hm.lies.byte_putBack hm.shape hm.bytes (hrows ▸ hp) (by omega), if_pos (by omega),
    Nat.add_sub_cancel_left, Nat.add_sub_cancel_left]

end Mapping

namespace Heap

variable {makers : List Manager} {h t : Heap} {p : Handle} {picture : Picture} {s s' : Storage}
  {m : Manager} {chroma other : String} {plane : PlaneStore} {r place : Region} {v w : View}

/-! ### Mappings before and after -/

theorem Holds.mapping_of_mapRead (hh : Holds h p picture s m)
    (hv : (mapRead p chroma r h).1 = .ok v) : ∃ plane, Mapping picture s chroma r plane v := by
  obtain ⟨-, plane, v', hm⟩ | ⟨-, why, hl, -⟩ := hh.mapping_or_refused chroma r
  · rw [mapRead_of_ok hh.find hm.locate hm.view] at hv
    cases hv
    exact ⟨plane, hm⟩
  · rw [mapRead_of_refused hh.find hl] at hv
    cases hv

theorem Holds.mapping_of_mapWrite (hh : Holds h p picture s m)
    (hv : mapWrite p chroma r h = (.ok v, t)) :
    h.refs picture.storage = 1 ∧ t = h.setMapped p picture (picture.mapped + 1) ∧
      ∃ plane, Mapping picture s chroma r plane v := by
  obtain ⟨-, plane, v', hm⟩ | ⟨-, why, hl, -⟩ := hh.mapping_or_refused chroma r
  · by_cases hr : h.refs picture.storage = 1
    · rw [mapWrite_of_ok hh.find hm.locate hr hm.view] at hv
      cases hv
      exact ⟨hr, rfl, plane, hm⟩
    · rw [mapWrite_of_shared hh.find hm.locate hr] at hv
      cases hv
  · rw [mapWrite_of_refused hh.find hl] at hv
    cases hv

theorem Holds.remap (hh : Holds h p picture s m) (ht : Holds t p picture s' m)
    (ha : s.SameAround s' place) (hm : Mapping picture s chroma r plane v) :
    ∃ data v', Mapping picture s' chroma r { plane with data } v' := by
  obtain ⟨hok, -⟩ | ⟨-, why, hl, -⟩ := hh.mapping_or_refused chroma r
  · obtain ⟨plane', hp, hright, hbottom, hr⟩ := (mappable_iff hh.find).mp hok
    cases hm.named.symm.trans hp
    obtain ⟨data, hp', -⟩ := ha.planes chroma plane hp
    exact ⟨data, ht.mapping hp' hright hbottom hr⟩
  · cases hm.locate.symm.trans hl

theorem Holds.commit_unmap (hh : Holds h p picture s m) (hm : Mapping picture s chroma r plane v)
    {inner : Nat → Nat → UInt8} (hp : View.Painted v.shape.rows inner v w) :
    unmap p chroma r ((h.setMapped p picture (picture.mapped + 1)).commit p chroma r w) =
      (.ok (), h.store picture.storage (s.write chroma (picture.span s plane r).offset w)) := by
  have hg := hh.setMapped (picture.mapped + 1)
  have ht : Holds (h.store picture.storage (s.write chroma (picture.span s plane r).offset w)) p picture
      (s.write chroma (picture.span s plane r).offset w) m := hh.store (hh.made.write ..) rfl rfl
  obtain ⟨data, v', hm'⟩ := hh.remap ht (hm.sameAround hp) hm
  have hcommit := (commit_of_ok hg.find (hm.setMapped _).locate w).trans (mapStorage_eq_store hg.stored?)
  have hreleased := unmap_of_ok (ht.setMapped (picture.mapped + 1)).find (hm'.setMapped _).locate
    (Nat.succ_ne_zero _)
  rw [hcommit]
  refine hreleased.trans (congrArg (Prod.mk _) ?_)
  exact setMapped_back ht.picture? _

/-! ### Calls that leave the bytes alone -/

/-- Legal calls of which none overwrites what is behind the handle. They may move its window. -/
def Harmless (p : Handle) (as : List Action) : Prop :=
  ∀ a ∈ as, a.Legal ∧ (a.handle? = some p → a.overwrites = false)

theorem harmless_resizes (p : Handle) (raws : List RawResize) :
    Harmless p (raws.map (Action.resize p)) := by
  intro a ha
  obtain ⟨raw, -, rfl⟩ := List.mem_map.mp ha
  exact ⟨fun _ hm => (nomatch hm), fun _ => rfl⟩

theorem Sound.applyAll (hs : Sound makers h) (as : List Action) (ha : ∀ a ∈ as, a.Legal) :
    ∃ makers', Sound makers' (Heap.applyAll as h) := by
  induction as generalizing makers h with
  | nil => exact ⟨makers, hs⟩
  | cons a as ih =>
    have hnext := hs.apply a (ha a List.mem_cons_self)
    exact ih hnext fun b hb => ha b (List.mem_cons_of_mem a hb)

theorem Sound.harmless (hs : Sound makers h) (hf : h.find p = .ok (picture, s)) {as : List Action}
    (ha : Harmless p as) : ∃ moved m, Holds (Heap.applyAll as h) p moved s m := by
  obtain ⟨moved, hfind, -⟩ := hs.keeps hf as (fun a ha' => (ha a ha').1) fun a ha' => (ha a ha').2
  obtain ⟨makers', hs'⟩ := hs.applyAll as fun a ha' => (ha a ha').1
  obtain ⟨m, hh⟩ := hs'.holds_of_find hfind
  exact ⟨moved, m, hh⟩

/-- A region of the window lies at that place of the allocation, and reading it gives this view. -/
def ReadsAt (h : Heap) (p : Handle) (chroma : String) (place : Region) (v : View) : Prop :=
  ∃ picture s r, h.find p = .ok (picture, s) ∧ picture.absolute r = place ∧
    (mapRead p chroma r h).1 = .ok v

theorem Sound.mapping_of_readsAt (hs : Sound makers h) (hf : h.find p = .ok (picture, s))
    {as : List Action} (ha : Harmless p as) (hv : (Heap.applyAll as h).ReadsAt p chroma place v) :
    ∃ moved q plane, moved.absolute q = place ∧ Mapping moved s chroma q plane v := by
  obtain ⟨moved, m, hh⟩ := hs.harmless hf ha
  obtain ⟨picture', s'', q, hf', hplace, hread⟩ := hv
  cases hh.find.symm.trans hf'
  obtain ⟨plane, hm⟩ := hh.mapping_of_mapRead hread
  exact ⟨moved, q, plane, hplace, hm⟩

/-! ### The write -/

structure Wrote (makers : List Manager) (h t : Heap) (p : Handle) (chroma : String) (r : Region)
    (picture : Picture) (s s' : Storage) (m : Manager) (plane : PlaneStore)
    (inner : Nat → Nat → UInt8) (v w : View) : Prop where
  sound : Sound makers h
  before : Holds h p picture s m
  sole : h.refs picture.storage = 1
  mapping : Mapping picture s chroma r plane v
  painted : View.Painted v.shape.rows inner v w
  storage : s' = s.write chroma (picture.span s plane r).offset w
  heap : t = h.store picture.storage s'

namespace Wrote

variable {inner : Nat → Nat → UInt8} {v₀ v₁ v' : View} {q : Region} {first later : List Action}

theorem after (hw : Wrote makers h t p chroma r picture s s' m plane inner v w) :
    Holds t p picture s' m := by
  rw [hw.heap, hw.storage]
  exact hw.before.store (hw.before.made.write ..) rfl rfl

theorem soundAfter (hw : Wrote makers h t p chroma r picture s s' m plane inner v w) :
    Sound makers t := by
  have hstored := hw.before.stored?
  rw [hw.heap, hw.storage, ← mapStorage_eq_store (f := Storage.write chroma _ w) hstored]
  exact (works_mapStorage hw.before.picture? hw.sole (fun s m hs => hs.write ..)
    (fun s m w hw => hw.write _) makers hw.sound).1

theorem sameBut (hw : Wrote makers h t p chroma r picture s s' m plane inner v w) :
    s.SameBut s' [chroma] (picture.absolute r) := by
  rw [hw.storage]
  exact hw.mapping.sameBut hw.painted

theorem accepts (hw : Wrote makers h t p chroma r picture s s' m plane inner v w)
    (hv₀ : (mapRead p other q h).1 = .ok v₀) : ∃ v₁, (mapRead p other q t).1 = .ok v₁ := by
  obtain ⟨plane₀, hm₀⟩ := hw.before.mapping_of_mapRead hv₀
  obtain ⟨data, v₁, hm₁⟩ := hw.before.remap hw.after hw.sameBut.around hm₀
  exact ⟨v₁, by rw [mapRead_of_ok hw.after.find hm₁.locate hm₁.view]⟩

theorem rows_of_readsAt (hw : Wrote makers h t p chroma r picture s s' m plane inner v w)
    (hpos : 0 < v.shape.rowBytes) (hlater : Harmless p later)
    (hv : (applyAll later t).ReadsAt p chroma (picture.absolute r) v') :
    v'.rows = .ok ((List.range v.shape.rows).map fun y =>
      (List.range v.shape.rowBytes).map (inner y)) := by
  obtain ⟨moved, q, plane', hplace, hm'⟩ := hw.soundAfter.mapping_of_readsAt hw.after.find hlater hv
  rw [hw.storage] at hm'
  cases (Storage.plane?_write_self hw.mapping.named).symm.trans hm'.named
  exact hw.mapping.rows_of_painted hm' rfl hplace hpos hw.painted

theorem sameRows (hw : Wrote makers h t p chroma r picture s s' m plane inner v w)
    (hfirst : Harmless p first) (hlater : Harmless p later)
    (hv₀ : (applyAll first h).ReadsAt p other place v₀)
    (hv₁ : (applyAll later t).ReadsAt p other place v₁)
    (hd : other ≠ chroma ∨ place.Disjoint (picture.absolute r)) : v₀.SameRows v₁ := by
  obtain ⟨a, q₀, plane₀, rfl, hm₀⟩ := hw.sound.mapping_of_readsAt hw.before.find hfirst hv₀
  obtain ⟨b, q₁, plane₁, hplace, hm₁⟩ := hw.soundAfter.mapping_of_readsAt hw.after.find hlater hv₁
  obtain ⟨data, hp, -, hsame⟩ := hw.sameBut.around.planes other plane₀ hm₀.named
  cases hp.symm.trans hm₁.named
  have hmac : s'.macropixel = s.macropixel := by rw [hw.sameBut.around.layout]
  refine hm₀.sameRows hm₁ hmac hplace fun y c hy hc => ?_
  by_cases ho : other = chroma
  · subst ho
    cases hm₀.named.symm.trans hw.mapping.named
    have hsize := (hw.before.fits hm₀.named).factors.2.2
    have hpixels := hd.resolve_left fun hne => hne rfl
    exact hsame _ (Span.not_covers_of_disjoint hm₀.lies hw.mapping.lies ⟨rfl, rfl⟩ ⟨rfl, rfl⟩ hsize
      hpixels (hm₀.rows ▸ hy) (hm₀.rowBytes ▸ hc))
  · have hplane := hw.sameBut.elsewhere other (by simpa using ho)
    rw [hp, hm₀.named] at hplane
    have hdata : data = plane₀.data := congrArg PlaneStore.data (Option.some.inj hplane)
    rw [hdata]

end Wrote

variable {rows : Nat → List UInt8} {order : List Nat} {h₁ : Heap}

theorem exists_wrote (hs : Sound makers h) (hw : mapWrite p chroma r h = (.ok v, h₁))
    (hpos : 0 < v.shape.rowBytes) (horder : ∀ y, y ∈ order ↔ y < v.shape.rows)
    (hrows : ∀ y < v.shape.rows, (rows y).length = v.shape.rowBytes) :
    ∃ w picture s s' m plane t, v.setRows? rows order = some w ∧
      unmap p chroma r (h₁.commit p chroma r w) = (.ok (), t) ∧
      Wrote makers h t p chroma r picture s s' m plane (fun y c => (rows y)[c]?.getD 0) v w := by
  obtain ⟨stop, hfail⟩ | ⟨picture, s, -, -, -, hf, -⟩ := mapWrite_cases p chroma r h
  · cases hfail.symm.trans hw
  obtain ⟨m, hh⟩ := hs.holds_of_find hf
  obtain ⟨hrefs, rfl, plane, hm⟩ := hh.mapping_of_mapWrite hw
  have hregular := hm.regular hpos
  obtain ⟨w, hset, hrewrites⟩ := View.exists_rewrites rows order hregular.apart
    fun y hy => ⟨(horder y).mp hy, hrows y ((horder y).mp hy)⟩
  have hp := hrewrites.painted hregular horder
  exact ⟨w, picture, s, _, m, plane, _, hset, hh.commit_unmap hm hp, hs, hh, hrefs, hm, hp, rfl, rfl⟩

/-- A mapping for writing is filled, in any order of its rows, and released. Then the region shows these
rows, also through a window that went elsewhere, and no byte but those of its rows is new: what has no
pixel of the region, or lies in another plane, is still accepted and shows what it showed. -/
theorem write_stays_in_region (hr : Reachable makers h) (hw : mapWrite p chroma r h = (.ok v, h₁))
    (hpos : 0 < v.shape.rowBytes) (horder : ∀ y, y ∈ order ↔ y < v.shape.rows)
    (hrows : ∀ y < v.shape.rows, (rows y).length = v.shape.rowBytes) :
    ∃ picture s s' w t, h.find p = .ok (picture, s) ∧ v.setRows? rows order = some w ∧
      unmap p chroma r (h₁.commit p chroma r w) = (.ok (), t) ∧
      t = h.store picture.storage s' ∧ t.find p = .ok (picture, s') ∧
      s.SameBut s' [chroma] (picture.absolute r) ∧
      (∃ v', (mapRead p chroma r t).1 = .ok v' ∧
        v'.rows = .ok ((List.range v.shape.rows).map rows)) ∧
      (∀ other q v₀, (mapRead p other q h).1 = .ok v₀ → ∃ v₁, (mapRead p other q t).1 = .ok v₁) ∧
      (∀ later v₁, Harmless p later → (applyAll later t).ReadsAt p chroma (picture.absolute r) v₁ →
        v₁.rows = .ok ((List.range v.shape.rows).map rows)) ∧
      ∀ first later other place v₀ v₁, Harmless p first → Harmless p later →
        (applyAll first h).ReadsAt p other place v₀ → (applyAll later t).ReadsAt p other place v₁ →
          other ≠ chroma ∨ place.Disjoint (picture.absolute r) → v₀.SameRows v₁ := by
  obtain ⟨w, picture, s, s', m, plane, t, hset, hback, hwrote⟩ :=
    exists_wrote hr.sound hw hpos horder hrows
  have hmap := hwrote.mapping
  have hshown : (List.range v.shape.rows).map (fun y =>
      (List.range v.shape.rowBytes).map fun c => (rows y)[c]?.getD 0) =
        (List.range v.shape.rows).map rows := by
    apply List.map_congr_left
    intro y hy
    exact View.map_range_row (hrows y (List.mem_range.mp hy))
  have hagain : ∀ later v₁, Harmless p later →
      (applyAll later t).ReadsAt p chroma (picture.absolute r) v₁ →
        v₁.rows = .ok ((List.range v.shape.rows).map rows) := by
    intro later v₁ hlater hv₁
    rw [hwrote.rows_of_readsAt hpos hlater hv₁, hshown]
  have hread : (mapRead p chroma r h).1 = .ok v := by
    rw [mapRead_of_ok hwrote.before.find hmap.locate hmap.view]
  obtain ⟨v', hv'⟩ := hwrote.accepts hread
  have hat : (applyAll [] t).ReadsAt p chroma (picture.absolute r) v' :=
    ⟨picture, s', r, hwrote.after.find, rfl, hv'⟩
  exact ⟨picture, s, s', w, t, hwrote.before.find, hset, hback, hwrote.heap, hwrote.after.find,
    hwrote.sameBut, ⟨v', hv', hagain [] v' nofun hat⟩, fun _ _ _ hv₀ => hwrote.accepts hv₀, hagain,
    fun _ _ _ _ _ _ hfirst hlater hv₀ hv₁ hd => hwrote.sameRows hfirst hlater hv₀ hv₁ hd⟩

theorem tallGray_written : ∃ v h₁ w t, mapWrite ⟨0⟩ "y8" ⟨1, 0, 2, 2⟩ tallGray = (.ok v, h₁) ∧
    v.setRows? (fun y => [UInt8.ofNat (7 + y), 9]) [1, 0] = some w ∧
    unmap ⟨0⟩ "y8" ⟨1, 0, 2, 2⟩ (h₁.commit ⟨0⟩ "y8" ⟨1, 0, 2, 2⟩ w) = (.ok (), t) ∧
    ∀ v', (applyAll [.resize ⟨0⟩ ⟨1, 0, 2, 2⟩] t).ReadsAt ⟨0⟩ "y8" ⟨2, 0, 2, 2⟩ v' →
      v'.rows = .ok [[7, 9], [8, 9]] := by
  have hmapped : (mapWrite ⟨0⟩ "y8" ⟨1, 0, 2, 2⟩ tallGray).1.toOption.map View.shape =
      some ⟨8, 2, 2⟩ := by decide +kernel
  cases hrun : mapWrite ⟨0⟩ "y8" ⟨1, 0, 2, 2⟩ tallGray with
  | mk result h₁ =>
    rw [hrun] at hmapped
    cases result with
    | error stop => cases hmapped
    | ok v =>
      have hshape : v.shape = ⟨8, 2, 2⟩ := Option.some.inj hmapped
      have horder : ∀ y, y ∈ [1, 0] ↔ y < v.shape.rows := by
        intro y
        rw [hshape]
        simp only [List.mem_cons, List.not_mem_nil, or_false]
        omega
      have hrows : ∀ y < v.shape.rows, [UInt8.ofNat (7 + y), 9].length = v.shape.rowBytes := by
        intro y _
        rw [hshape]
        rfl
      obtain ⟨picture, s, s', w, t, hf, hset, hback, -, -, -, -, -, hlater, -⟩ :=
        write_stays_in_region reachable_tallGray hrun (by rw [hshape]; decide) horder hrows
      have hp : tallGray.picture? ⟨0⟩ = some ⟨0, ⟨1, 0, 4, 2⟩, 0⟩ := by decide +kernel
      cases hp.symm.trans (find_eq_ok.mp hf).1
      refine ⟨v, h₁, w, t, rfl, hset, hback, fun v' hv' => ?_⟩
      rw [hlater _ v' (harmless_resizes ⟨0⟩ [⟨1, 0, 2, 2⟩]) hv', hshape]
      rfl

end Heap

end Planar
