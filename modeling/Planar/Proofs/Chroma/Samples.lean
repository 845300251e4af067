import Mathlib.Algebra.Ring.Nat
import Planar.Proofs.Chroma.Spelling
set_option autoImplicit false

/-!
The samples of a blank macropixel. Bytes are read back by the components, one after another and then
from the first one again; each sample that is read from a fill is the neutral one of its component.
-/

namespace Planar.Chroma

/-- What a sample is where there is nothing to see: the middle of the range for colour differences. -/
def Component.blank (k : Component) : Nat :=
  match k.letter with
  | .u | .v => 2 ^ (k.bits - 1)
  | _ => 0

/-- Takes a sample off the front: one byte for up to eight bits, else two in the component's order. -/
def Component.readSample (k : Component) (bytes : List UInt8) : Option (Nat × List UInt8) :=
  if k.bits ≤ 8 then
    match bytes with
    | x :: rest => some (x.toNat, rest)
    | [] => none
  else match k.order, bytes with
    | some .little, low :: high :: rest => some (low.toNat + 256 * high.toNat, rest)
    | some .big, high :: low :: rest => some (256 * high.toNat + low.toNat, rest)
    | _, _ => none

def readSamples : List Component → List UInt8 → Option (List Nat × List UInt8)
  | [], bytes => some ([], bytes)
  | k :: ks, bytes => do
    let (value, bytes) ← k.readSample bytes
    let (values, bytes) ← readSamples ks bytes
    return (value :: values, bytes)

def cycle (rounds : Nat) (ks : List Component) : List Component := (List.replicate rounds ks).flatten

namespace Component

variable {k : Component} {value : Nat}

theorem neutral_eq (k : Component) : k.neutral = k.blank := by
  unfold neutral blank
  cases k.letter <;> simp [Letter.role, Nat.one_shiftLeft]

theorem blank_lt (hk : k.WellFormed) : k.blank < 2 ^ k.bits := by
  have hbits := hk.range.1
  have hhalf : 2 ^ (k.bits - 1) < 2 ^ k.bits := Nat.pow_lt_pow_right (by decide) (by omega)
  unfold blank
  split
  · exact hhalf
  · exact hhalf
  · exact Nat.two_pow_pos k.bits

theorem length_encode (hk : k.WellFormed) (value : Nat) : (encode k.order value).length = k.bytes := by
  have horder := hk.order
  unfold bytes
  match hord : k.order with
  | none =>
    rw [hord] at horder
    rw [if_neg (by simpa using horder)]
    rfl
  | some .little | some .big =>
    rw [hord] at horder
    rw [if_pos (by simpa using horder)]
    rfl

theorem readSample_encode (hk : k.WellFormed) (hv : value < 2 ^ k.bits) (rest : List UInt8) :
    k.readSample (encode k.order value ++ rest) = some (value, rest) := by
  have horder := hk.order
  have hle : value < 2 ^ 16 :=
    Nat.lt_of_lt_of_le hv (Nat.pow_le_pow_right (by decide) hk.range.2)
  unfold readSample
  match hord : k.order with
  | none =>
    have hbits : k.bits ≤ 8 := by simpa [hord] using horder
    have hbyte : value < 2 ^ 8 := Nat.lt_of_lt_of_le hv (Nat.pow_le_pow_right (by decide) hbits)
    rw [if_pos hbits]
    simp [encode]
    omega
  | some .little =>
    have hbits : ¬ k.bits ≤ 8 := by simpa [hord] using horder
    rw [if_neg hbits]
    simp [encode]
    omega
  | some .big =>
    have hbits : ¬ k.bits ≤ 8 := by simpa [hord] using horder
    rw [if_neg hbits]
    simp [encode]
    omega

theorem readSample_neutralBytes (hk : k.WellFormed) (rest : List UInt8) :
    k.readSample (k.neutralBytes ++ rest) = some (k.blank, rest) := by
  unfold neutralBytes
  rw [neutral_eq]
  exact readSample_encode hk (blank_lt hk) rest

end Component

variable {name : String} {size : Nat} {ks : List Component} {fill : List UInt8}

theorem wellFormed_of_parse (h : parse name = .ok ks) : ∀ k ∈ ks, k.WellFormed := by
  obtain ⟨-, tokens, hcuts⟩ := parse_eq_ok.mp h
  have hspells := hcuts.spells
  clear hcuts h
  induction hspells with
  | nil => simp
  | cons htoken _ ih => exact List.forall_mem_cons.mpr ⟨htoken.wellFormed, ih⟩

/-! ### Patterns -/

theorem patternLen_eq (ks : List Component) : patternLen ks = (ks.map Component.bytes).sum := by
  induction ks with
  | nil => rfl
  | cons k ks ih =>
    rw [List.map_cons, List.sum_cons, ← ih]
    rfl

theorem patternLen_pos (hne : ks ≠ []) : 0 < patternLen ks := by
  cases ks with
  | nil => exact absurd rfl hne
  | cons k ks =>
    have hbyte : 0 < k.bytes := by
      unfold Component.bytes
      split <;> decide
    exact Nat.add_pos_left hbyte _

theorem length_neutralPattern (hks : ∀ k ∈ ks, k.WellFormed) :
    (neutralPattern ks).length = patternLen ks := by
  induction ks with
  | nil => rfl
  | cons k ks ih =>
    obtain ⟨hk, hks⟩ := List.forall_mem_cons.mp hks
    have hfirst : k.neutralBytes.length = k.bytes := Component.length_encode hk _
    unfold neutralPattern at ih ⊢
    rw [List.flatMap_cons, List.length_append, ih hks, hfirst]
    rfl

theorem neutralPattern_cycle (rounds : Nat) (ks : List Component) :
    neutralPattern (cycle rounds ks) = (List.replicate rounds (neutralPattern ks)).flatten := by
  unfold neutralPattern cycle
  induction rounds with
  | zero => rfl
  | succ rounds ih =>
    rw [List.replicate_succ, List.flatten_cons, List.flatMap_append, ih, List.replicate_succ,
      List.flatten_cons]

theorem forall_mem_cycle {p : Component → Prop} (rounds : Nat) (h : ∀ k ∈ ks, p k) :
    ∀ k ∈ cycle rounds ks, p k := by
  intro k hk
  obtain ⟨round, hround, hk⟩ := List.mem_flatten.mp hk
  exact h k (List.eq_of_mem_replicate hround ▸ hk)

theorem readSamples_neutralPattern (hks : ∀ k ∈ ks, k.WellFormed) (rest : List UInt8) :
    readSamples ks (neutralPattern ks ++ rest) = some (ks.map Component.blank, rest) := by
  induction ks with
  | nil => rfl
  | cons k ks ih =>
    obtain ⟨hk, hks⟩ := List.forall_mem_cons.mp hks
    have htail := ih hks
    unfold neutralPattern at htail ⊢
    rw [List.flatMap_cons, List.append_assoc, readSamples, Component.readSample_neutralBytes hk]
    simp [htail]

theorem patternLen_cycle (rounds : Nat) (ks : List Component) :
    patternLen (cycle rounds ks) = rounds * patternLen ks := by
  rw [patternLen_eq, patternLen_eq]
  unfold cycle
  rw [List.map_flatten, List.map_replicate, List.sum_flatten, List.map_replicate,
    List.sum_replicate_nat]

/-! ### Fills -/

/-- The bytes of a macropixel of so many bytes, all of them neutral samples of the components in turn. -/
structure Neutral (ks : List Component) (size : Nat) (fill : List UInt8) : Prop where
  length : fill.length = size
  samples : readSamples (cycle (size / patternLen ks) ks) fill =
    some ((cycle (size / patternLen ks) ks).map Component.blank, [])

theorem neutral_of_dvd (hks : ∀ k ∈ ks, k.WellFormed) (hdvd : patternLen ks ∣ size) :
    Neutral ks size (neutralPattern (cycle (size / patternLen ks) ks)) := by
  have hcycle := forall_mem_cycle (size / patternLen ks) hks
  refine ⟨?_, ?_⟩
  · rw [length_neutralPattern hcycle, patternLen_cycle, Nat.div_mul_cancel hdvd]
  · have hread := readSamples_neutralPattern hcycle []
    rwa [List.append_nil] at hread

theorem repetitions_of_parse (h : parse name = .ok ks) : repetitions name size =
    if 0 < size ∧ patternLen ks ∣ size then .ok (size / patternLen ks, neutralPattern ks)
    else .error (.unsupported (.chromaPattern name (patternLen ks) size)) := by
  unfold repetitions
  simp only [h, Except.ok_bind, Except.check_eq, length_neutralPattern (wellFormed_of_parse h)]
  by_cases ht : 0 < size ∧ patternLen ks ∣ size
  · rw [if_pos ht, if_neg]
    · rfl
    · have hrest := Nat.mod_eq_zero_of_dvd ht.2
      omega
  · rw [if_neg ht, if_pos]
    rw [Nat.dvd_iff_mod_eq_zero] at ht
    omega

theorem neutralFill_of_parse (h : parse name = .ok ks) : neutralFill name size =
    if 0 < size ∧ patternLen ks ∣ size then .ok (neutralPattern (cycle (size / patternLen ks) ks))
    else .error (.unsupported (.chromaPattern name (patternLen ks) size)) := by
  unfold neutralFill
  rw [repetitions_of_parse h, neutralPattern_cycle]
  split <;> rfl

theorem neutralFill_of_parse_error {why : Fault} (h : parse name = .error why) :
    neutralFill name size = .error why := by
  unfold neutralFill repetitions
  rw [h]
  rfl

theorem neutralFill_eq_ok : neutralFill name size = .ok fill ↔ ∃ ks, parse name = .ok ks ∧
    (0 < size ∧ patternLen ks ∣ size) ∧ fill = neutralPattern (cycle (size / patternLen ks) ks) := by
  cases h : parse name with
  | error why => simp [neutralFill_of_parse_error h]
  | ok ks =>
    rw [neutralFill_of_parse h]
    by_cases ht : 0 < size ∧ patternLen ks ∣ size
    · simp [ht, eq_comm]
    · simp [ht]

theorem neutralFill_eq_error {why : Fault} (h : neutralFill name size = .error why) :
    ∃ cause, why = .unsupported cause := by
  cases hparse : parse name with
  | error reason =>
    rw [neutralFill_of_parse_error hparse] at h
    cases h
    obtain ⟨cause, rfl⟩ := parse_eq_error hparse
    exact ⟨_, rfl⟩
  | ok ks =>
    rw [neutralFill_of_parse hparse] at h
    split at h
    · cases h
    · cases h
      exact ⟨_, rfl⟩

theorem length_neutralFill (h : neutralFill name size = .ok fill) : fill.length = size ∧ 0 < size := by
  obtain ⟨ks, hparse, ⟨hpos, hdvd⟩, rfl⟩ := neutralFill_eq_ok.mp h
  exact ⟨(neutral_of_dvd (wellFormed_of_parse hparse) hdvd).length, hpos⟩

theorem neutralBlock_of_fill (h : neutralFill name size = .ok fill) :
    neutralBlock name size = if size > Word.maxSigned then .error .crash else .ok fill := by
  obtain ⟨ks, hparse, ht, -⟩ := neutralFill_eq_ok.mp h
  unfold neutralBlock
  rw [repetitions_of_parse hparse, if_pos ht, h]
  exact Except.check_eq

theorem neutralBlock_of_fault {why : Fault} (h : neutralFill name size = .error why) :
    neutralBlock name size = .error (.fault why) := by
  unfold neutralFill at h
  unfold neutralBlock
  cases hr : repetitions name size with
  | error reason =>
    rw [hr] at h
    cases h
    rfl
  | ok r =>
    rw [hr] at h
    cases h

theorem neutralBlock_eq_ok : neutralBlock name size = .ok fill ↔
    neutralFill name size = .ok fill ∧ size ≤ Word.maxSigned := by
  cases h : neutralFill name size with
  | error why => simp [neutralBlock_of_fault h]
  | ok bytes =>
    rw [neutralBlock_of_fill h]
    by_cases hsize : size ≤ Word.maxSigned
    · rw [if_neg (by omega)]
      simp [hsize]
    · rw [if_pos (by omega)]
      simp [hsize]

theorem neutralBlock_eq_crash : neutralBlock name size = .error .crash ↔
    (∃ fill, neutralFill name size = .ok fill) ∧ Word.maxSigned < size := by
  cases h : neutralFill name size with
  | error why => simp [neutralBlock_of_fault h]
  | ok bytes =>
    rw [neutralBlock_of_fill h]
    by_cases hsize : Word.maxSigned < size
    · simp [hsize]
    · simp [hsize]

/-- The samples of a name fill their pattern, which is never empty. A block is filled exactly if the name
is read, a whole number of patterns fits, and there can be such a block; it is the fill of the plane and
has a neutral sample of each component in turn. A larger one ends the program, and all else is
unsupported. -/
theorem block_has_neutral_samples (name : String) (size : Nat) :
    (∀ ks, parse name = .ok ks → (neutralPattern ks).length = patternLen ks ∧
      patternLen ks = (ks.map Component.bytes).sum ∧ 0 < patternLen ks) ∧
    ((∃ fill, neutralBlock name size = .ok fill) ↔
      ∃ ks, parse name = .ok ks ∧ 0 < size ∧ patternLen ks ∣ size ∧ size ≤ 2 ^ 63 - 1) ∧
    (∀ fill, neutralBlock name size = .ok fill →
      neutralFill name size = .ok fill ∧ ∃ ks, parse name = .ok ks ∧ Neutral ks size fill) ∧
    (∀ why, neutralBlock name size = .error (.fault why) →
      neutralFill name size = .error why ∧ ∃ cause, why = .unsupported cause) ∧
    (neutralBlock name size = .error .crash ↔
      ∃ ks, parse name = .ok ks ∧ 0 < size ∧ patternLen ks ∣ size ∧ 2 ^ 63 - 1 < size) := by
  have hmax : Word.maxSigned = 2 ^ 63 - 1 := by decide
  have hfill : (∃ fill, neutralFill name size = .ok fill) ↔
      ∃ ks, parse name = .ok ks ∧ 0 < size ∧ patternLen ks ∣ size := by
    simp only [neutralFill_eq_ok]
    constructor
    · rintro ⟨fill, ks, hparse, ht, -⟩
      exact ⟨ks, hparse, ht⟩
    · rintro ⟨ks, hparse, ht⟩
      exact ⟨_, ks, hparse, ht, rfl⟩
  refine ⟨?pattern, ?filled, ?samples, ?refused, ?crashed⟩
  case pattern =>
    intro ks hparse
    exact ⟨length_neutralPattern (wellFormed_of_parse hparse), patternLen_eq ks,
      patternLen_pos (parse_eq_ok.mp hparse).1⟩
  case filled =>
    simp only [neutralBlock_eq_ok, exists_and_right, hfill, hmax]
    simp only [← exists_and_right, and_assoc]
  case samples =>
    intro fill hblock
    obtain ⟨hplane, -⟩ := neutralBlock_eq_ok.mp hblock
    obtain ⟨ks, hparse, ⟨-, hdvd⟩, rfl⟩ := neutralFill_eq_ok.mp hplane
    exact ⟨hplane, ks, hparse, neutral_of_dvd (wellFormed_of_parse hparse) hdvd⟩
  case refused =>
    intro why hblock
    cases hplane : neutralFill name size with
    | error reason =>
      rw [neutralBlock_of_fault hplane] at hblock
      cases hblock
      exact ⟨rfl, neutralFill_eq_error hplane⟩
    | ok fill =>
      rw [neutralBlock_of_fill hplane] at hblock
      split at hblock <;> cases hblock
  case crashed =>
    rw [neutralBlock_eq_crash, hfill, hmax]
    simp only [← exists_and_right, and_assoc]

theorem block_of_u10lv8 : ∃ fill, neutralBlock "u10lv8" 6 = .ok fill ∧ fill.length = 6 ∧
    readSamples [⟨.u, 10, some .little⟩, ⟨.v, 8, none⟩, ⟨.u, 10, some .little⟩, ⟨.v, 8, none⟩] fill =
      some ([512, 128, 512, 128], []) := by
  have hparse : parse "u10lv8" = .ok [⟨.u, 10, some .little⟩, ⟨.v, 8, none⟩] :=
    eq_ok_of_toOption (by decide +kernel)
  obtain ⟨-, hfilled, hsamples, -, -⟩ := block_has_neutral_samples "u10lv8" 6
  obtain ⟨fill, hfill⟩ := hfilled.mpr ⟨_, hparse, by decide, by decide, by decide⟩
  obtain ⟨-, ks, hks, hneutral⟩ := hsamples fill hfill
  cases hparse.symm.trans hks
  exact ⟨fill, hfill, hneutral.length, hneutral.samples⟩

/-- A pattern that fits is not enough, since a block has at most 2⁶³ - 1 bytes. -/
theorem no_block_of_signed_bytes : parse "y8" = .ok [⟨.y, 8, none⟩] ∧ 0 < 2 ^ 63 ∧
    patternLen [⟨.y, 8, none⟩] ∣ 2 ^ 63 ∧ ¬ ∃ fill, neutralBlock "y8" (2 ^ 63) = .ok fill := by
  refine ⟨eq_ok_of_toOption (by decide +kernel), by decide, by decide, ?_⟩
  rintro ⟨fill, hfill⟩
  exact absurd (neutralBlock_eq_ok.mp hfill).2 (by decide)

end Planar.Chroma
