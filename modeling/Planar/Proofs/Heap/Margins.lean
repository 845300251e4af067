import Planar.Proofs.Heap.Painting
set_option autoImplicit false

/-!
What a write leaves alone. The view of a region goes from its first row to its last one, so that
padding and what lies beside the region is taken along, and comes back as it was.
-/

namespace Planar

def Span.Covers (span : Span) (i : Nat) : Prop :=
  ∃ y, y < span.rows ∧ span.offset + y * span.stride ≤ i ∧
    i < span.offset + y * span.stride + span.rowBytes

theorem Span.Lies.getElem?_putBack {span : Span} {p : PlaneStore} {top left : Nat} {v w : View}
    {f : Nat → Nat → UInt8} (hl : span.Lies p top left) (hs : v.shape = span.toShape)
    (hv : ∀ i, i < span.len → v.data.byte i = p.data.byte (span.offset + i))
    (hp : View.Painted span.rows f v w) {i : Nat} (hi : ¬ span.Covers i) :
    (w.putBack p.data span.offset)[i]? = p.data[i]? := by
  have hlen : w.data.size = span.len := by rw [w.size_data, hp.shape, hs]
  unfold View.putBack
  rw [Bytes.getElem?_put, Array.length_toList, hlen]
  split
  · rename_i hin
    obtain ⟨j, rfl⟩ := Nat.exists_eq_add_of_le hin.1
    have hj : j < span.len := by omega
    have hpos : 0 < span.rowBytes := by
      unfold Shape.len at hj
      split at hj <;> omega
    have hwidth := hl.width
    have hstride : 0 < p.desc.stride := by omega
    have hsplit := Nat.div_add_mod' j p.desc.stride
    have hpaint := hl.byte_painted hs hv hp (Nat.mod_lt j hstride) (hsplit.symm ▸ hj)
    rw [if_neg, hsplit] at hpaint
    · rw [Nat.add_sub_cancel_left, Array.getElem?_toList]
      exact Bytes.getElem?_eq_of_byte (hlen ▸ hj) hin.2.2 hpaint
    · intro hrow
      refine hi ⟨j / p.desc.stride, hrow.1, ?_⟩
      rw [hl.stride]
      omega
  · rfl

/-- The same storage but for bytes in the rows of a region. -/
structure Storage.SameAround (s s' : Storage) (r : Region) : Prop where
  layout : s' = { s with planes := s'.planes }
  planes : ∀ chroma plane, s.plane? chroma = some plane → ∃ data : Bytes,
    s'.plane? chroma = some { plane with data } ∧ data.size = plane.data.size ∧
      ∀ i, ¬ (plane.desc.span r s.macropixel).Covers i → data[i]? = plane.data[i]?

namespace Storage

variable {s s' s₁ : Storage} {r : Region}

theorem SameAround.refl (s : Storage) (r : Region) : s.SameAround s r :=
  ⟨rfl, fun _ plane hp => ⟨plane.data, hp, rfl, fun _ _ => rfl⟩⟩

theorem SameAround.trans (h : s.SameAround s₁ r) (h' : s₁.SameAround s' r) : s.SameAround s' r where
  layout :=
    h'.layout.trans (congrArg (fun t : Storage => { t with planes := s'.planes }) h.layout)
  planes chroma plane hp := by
    obtain ⟨data, hp₁, hsize, hsame⟩ := h.planes chroma plane hp
    obtain ⟨data', hp', hsize', hsame'⟩ := h'.planes chroma _ hp₁
    have hm : s₁.macropixel = s.macropixel := by rw [h.layout]
    refine ⟨data', hp', hsize'.trans hsize, fun i hi => ?_⟩
    rw [hsame' i (hm ▸ hi), hsame i hi]

end Storage

theorem Mapping.sameAround {picture : Picture} {s : Storage} {chroma : String} {r : Region}
    {plane : PlaneStore} {v w : View} {inner : Nat → Nat → UInt8}
    (hm : Mapping picture s chroma r plane v) (hp : View.Painted v.shape.rows inner v w) :
    s.SameAround (s.write chroma (picture.span s plane r).offset w) (picture.absolute r) where
  layout := rfl
  planes other plane' hother := by
    by_cases ho : other = chroma
    · subst ho
      obtain rfl := Option.some.inj (hm.named.symm.trans hother)
      have hrows : v.shape.rows = (picture.span s plane r).rows := by rw [hm.shape]
      refine ⟨_, Storage.plane?_write_self hm.named, Bytes.size_put .., fun i hi => ?_⟩
      exact hm.lies.getElem?_putBack hm.shape hm.bytes (hrows ▸ hp) hi
    · exact ⟨plane'.data, (Storage.find?_writePlane_ne ho).trans hother, rfl, fun _ _ => rfl⟩

end Planar
