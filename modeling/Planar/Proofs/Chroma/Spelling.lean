import Mathlib.Data.List.Forall2
import Mathlib.Data.List.TakeWhile
import Planar.Chroma.Neutral
import Planar.Proofs.Operation
set_option autoImplicit false

/-!
The names that are read. A name is cut into spellings of its components, and it can be cut in one way
only: digits are read as far as they go, a letter stops them, and what stands behind the digits of a deep
sample is its byte order even where it could be a letter.
-/

namespace Planar.Chroma

inductive Stands : Char → Role → Prop where
  | y : Stands 'y' .luma
  | u : Stands 'u' .colorDifference
  | v : Stands 'v' .colorDifference
  | a : Stands 'a' .alpha
  | r : Stands 'r' .primary
  | g : Stands 'g' .primary
  | b : Stands 'b' .primary

structure Digits (digits : List Char) : Prop where
  decimal : ∀ d ∈ digits, d.isDigit = true
  count : digits.length = 1 ∨ digits.length = 2

/-- What follows the digits of a sample with so many bits. -/
inductive Orders : Nat → List Char → Option ByteOrder → Prop where
  | single {bits : Nat} (h : bits ≤ 8) : Orders bits [] none
  | little {bits : Nat} (h : 8 < bits) : Orders bits ['l'] (some .little)
  | big {bits : Nat} (h : 8 < bits) : Orders bits ['b'] (some .big)

structure Parts (first : Char) (digits suffix : List Char) (k : Component) : Prop where
  letter : first = k.letter.toChar
  role : Stands first k.letter.role
  count : Digits digits
  bits : Name.decimal digits = k.bits
  range : 1 ≤ k.bits ∧ k.bits ≤ 16
  order : Orders k.bits suffix k.order

/-- The token spells the component. -/
def Spells (token : List Char) (k : Component) : Prop :=
  ∃ first digits suffix, token = first :: (digits ++ suffix) ∧ Parts first digits suffix k

/-- The text is cut into tokens that spell the components one by one. -/
structure Cuts (tokens : List (List Char)) (cs : List Char) (ks : List Component) : Prop where
  text : tokens.flatten = cs
  spells : List.Forall₂ Spells tokens ks

structure Component.WellFormed (k : Component) : Prop where
  range : 1 ≤ k.bits ∧ k.bits ≤ 16
  order : k.order.isSome = true ↔ 8 < k.bits

theorem Orders.isSome_iff {bits : Nat} {suffix : List Char} {order : Option ByteOrder}
    (h : Orders bits suffix order) : order.isSome = true ↔ 8 < bits := by
  cases h <;> simp <;> omega

theorem Letter.stands (l : Letter) : Stands l.toChar l.role := by cases l <;> constructor

theorem Letter.not_isDigit (l : Letter) : l.toChar.isDigit = false := by cases l <;> rfl

theorem Letter.ofChar?_eq_some {c : Char} {l : Letter} : ofChar? c = some l ↔ c = l.toChar := by
  constructor
  · intro h
    unfold ofChar? at h
    split at h <;> cases h <;> rfl
  · rintro rfl
    exact ofChar?_toChar l

namespace Name

variable {cs rest digits suffix token : List Char} {bits : Nat} {order : Option ByteOrder}
  {c : Char} {k : Component} {ks : List Component}

def Stops (rest : List Char) : Prop := ∀ d, rest.head? = some d → d.isDigit = false

theorem stops_nil : Stops [] := by simp [Stops]

theorem stops_cons : Stops (c :: cs) ↔ c.isDigit = false := by simp [Stops]

theorem stops_dropWhile (cs : List Char) : Stops (cs.dropWhile Char.isDigit) := by
  intro d hd
  rw [← List.find?_not_eq_head?_dropWhile] at hd
  simpa using List.find?_some hd

theorem takeWhile_digits (hd : ∀ d ∈ digits, d.isDigit = true) (hr : Stops rest) :
    (digits ++ rest).takeWhile Char.isDigit = digits := by
  rw [List.takeWhile_append_of_pos hd]
  cases rest with
  | nil => simp
  | cons d rest => simp [stops_cons.mp hr]

theorem dropWhile_digits (hd : ∀ d ∈ digits, d.isDigit = true) (hr : Stops rest) :
    (digits ++ rest).dropWhile Char.isDigit = rest := by
  rw [List.dropWhile_append_of_pos hd]
  cases rest with
  | nil => simp
  | cons d rest => simp [stops_cons.mp hr]

theorem readBits_eq_ok : readBits cs = .ok (bits, rest) ↔ ∃ digits, cs = digits ++ rest ∧
    Digits digits ∧ decimal digits = bits ∧ (1 ≤ bits ∧ bits ≤ 16) ∧ Stops rest := by
  -- no digits at all read as zero, so the range of the bits asks for one
  constructor
  · intro h
    simp only [readBits] at h
    split at h
    · cases h
    rename_i hcount
    split at h
    · cases h
    rename_i hrange
    cases h
    have hsome : cs.takeWhile Char.isDigit ≠ [] := by
      intro hnil
      simp [hnil, decimal] at hrange
    have hpos := List.length_pos_iff.mpr hsome
    refine ⟨cs.takeWhile Char.isDigit, List.takeWhile_append_dropWhile.symm, ⟨?_, ?_⟩, rfl, ?_,
      stops_dropWhile cs⟩
    · exact fun d hd => List.mem_takeWhile_imp hd
    · omega
    · omega
  · rintro ⟨digits, rfl, ⟨hdecimal, hcount⟩, rfl, hrange, hstops⟩
    simp only [readBits, takeWhile_digits hdecimal hstops, dropWhile_digits hdecimal hstops]
    rw [if_neg (by omega), if_neg (by omega)]

theorem readOrder_eq_ok : readOrder bits cs = .ok (order, rest) ↔
    ∃ suffix, cs = suffix ++ rest ∧ Orders bits suffix order := by
  constructor
  · intro h
    unfold readOrder at h
    split at h
    · cases h
      exact ⟨[], rfl, .single ‹_›⟩
    · rename_i hdeep
      split at h
      · cases h
        exact ⟨['l'], rfl, .little (by omega)⟩
      · cases h
        exact ⟨['b'], rfl, .big (by omega)⟩
      · cases h
  · rintro ⟨suffix, rfl, hsuffix⟩
    cases hsuffix with
    | single h => simp [readOrder, h]
    | little h => simp [readOrder, h]
    | big h => simp [readOrder, h]

theorem stops_append (h : Orders bits suffix order) :
    Stops (suffix ++ rest) ↔ (bits ≤ 8 → Stops rest) := by
  -- the byte order of a deep sample is no digit; without one the text behind has to stop the digits
  cases h with
  | single h => simp [h]
  | little h =>
    refine iff_of_true (stops_cons.mpr rfl) ?_
    omega
  | big h =>
    refine iff_of_true (stops_cons.mpr rfl) ?_
    omega

theorem readComponent_eq_ok : readComponent c cs = .ok (k, rest) ↔
    ∃ token, token ++ rest = c :: cs ∧ Spells token k ∧ (k.bits ≤ 8 → Stops rest) := by
  constructor
  · intro h
    unfold readComponent at h
    split at h
    · rename_i letter hletter
      obtain ⟨⟨bits, mid⟩, hbits, h⟩ := Except.bind_eq_ok.mp h
      obtain ⟨⟨order, tail⟩, horder, h⟩ := Except.bind_eq_ok.mp h
      cases h
      obtain ⟨digits, rfl, hdigits, rfl, hrange, hstops⟩ := readBits_eq_ok.mp hbits
      obtain ⟨suffix, rfl, hsuffix⟩ := readOrder_eq_ok.mp horder
      rw [Letter.ofChar?_eq_some] at hletter
      subst hletter
      refine ⟨letter.toChar :: (digits ++ suffix), by simp, ?_, (stops_append hsuffix).mp hstops⟩
      exact ⟨_, digits, suffix, rfl, rfl, letter.stands, hdigits, rfl, hrange, hsuffix⟩
    · cases h
  · rintro ⟨token, htext, ⟨first, digits, suffix, rfl, hparts⟩, hstops⟩
    obtain ⟨rfl, hcs⟩ : first = c ∧ digits ++ (suffix ++ rest) = cs := by simpa using htext
    have hbits := readBits_eq_ok.mpr ⟨digits, hcs.symm, hparts.count, hparts.bits, hparts.range,
      (stops_append hparts.order).mpr hstops⟩
    have horder : readOrder k.bits (suffix ++ rest) = .ok (k.order, rest) :=
      readOrder_eq_ok.mpr ⟨suffix, rfl, hparts.order⟩
    rw [hparts.letter]
    simp only [readComponent, Letter.ofChar?_toChar]
    refine Except.bind_eq_ok.mpr ⟨_, hbits, ?_⟩
    exact Except.bind_eq_ok.mpr ⟨_, horder, rfl⟩

theorem readComponents_cons_eq_ok : readComponents (c :: cs) = .ok ks ↔
    ∃ k rest more, readComponent c cs = .ok (k, rest) ∧ readComponents rest = .ok more ∧
      ks = k :: more := by
  rw [readComponents]
  split
  · rename_i e he
    simp [he]
  · rename_i k rest hk
    cases hrest : readComponents rest with
    | error e => simp [hk, hrest]
    | ok more => simp [hk, hrest, eq_comm]

end Name

section

variable {cs cs' rest rest' token token' : List Char} {tokens tokens' : List (List Char)}
  {k k' : Component} {ks ks' : List Component}

theorem Spells.exists_cons (h : Spells token k) : ∃ first more, token = first :: more ∧
    first.isDigit = false := by
  obtain ⟨first, digits, suffix, rfl, hparts⟩ := h
  exact ⟨first, digits ++ suffix, rfl, hparts.letter ▸ k.letter.not_isDigit⟩

theorem Spells.wellFormed (h : Spells token k) : k.WellFormed := by
  obtain ⟨first, digits, suffix, -, hparts⟩ := h
  exact ⟨hparts.range, hparts.order.isSome_iff⟩

theorem Cuts.stops (h : Cuts tokens cs ks) : Name.Stops cs := by
  obtain ⟨rfl, hspells⟩ := h
  cases hspells with
  | nil => exact Name.stops_nil
  | cons htoken _ =>
    obtain ⟨first, more, rfl, hfirst⟩ := htoken.exists_cons
    exact Name.stops_cons.mpr hfirst

theorem Spells.unique (h : Spells token k) (h' : Spells token' k') (hr : Name.Stops rest)
    (hr' : Name.Stops rest') (heq : token ++ rest = token' ++ rest') :
    token = token' ∧ k = k' ∧ rest = rest' := by
  obtain ⟨first, more, hmore, -⟩ := h.exists_cons
  have htext : token ++ rest = first :: (more ++ rest) := by simp [hmore]
  have hread := Name.readComponent_eq_ok.mpr ⟨token, htext, h, fun _ => hr⟩
  have hread' := Name.readComponent_eq_ok.mpr ⟨token', heq.symm.trans htext, h', fun _ => hr'⟩
  -- One text is read in one way, so both leave the same behind.
  rw [hread] at hread'
  obtain ⟨rfl, rfl⟩ : k = k' ∧ rest = rest' := by simpa using hread'
  exact ⟨List.append_cancel_right heq, rfl, rfl⟩

theorem cuts_nil_iff : Cuts tokens [] ks ↔ tokens = [] ∧ ks = [] := by
  constructor
  · rintro ⟨htext, hspells⟩
    cases hspells with
    | nil => exact ⟨rfl, rfl⟩
    | cons htoken _ =>
      obtain ⟨first, more, rfl, -⟩ := htoken.exists_cons
      cases htext
  · rintro ⟨rfl, rfl⟩
    exact ⟨rfl, .nil⟩

theorem Cuts.cons (h : Spells token k) (hrest : Cuts tokens rest ks) :
    Cuts (token :: tokens) (token ++ rest) (k :: ks) :=
  ⟨by rw [List.flatten_cons, hrest.text], .cons h hrest.spells⟩

theorem Cuts.append (h : Cuts tokens cs ks) (h' : Cuts tokens' cs' ks') :
    Cuts (tokens ++ tokens') (cs ++ cs') (ks ++ ks') :=
  ⟨by rw [List.flatten_append, h.text, h'.text], List.rel_append h.spells h'.spells⟩

theorem Cuts.unique (h : Cuts tokens cs ks) (h' : Cuts tokens' cs ks') :
    tokens = tokens' ∧ ks = ks' := by
  obtain ⟨htext, hspells⟩ := h
  induction hspells generalizing cs tokens' ks' with
  | nil =>
    obtain rfl : [] = cs := htext
    obtain ⟨rfl, rfl⟩ := cuts_nil_iff.mp h'
    exact ⟨rfl, rfl⟩
  | cons htoken hmore ih =>
    obtain ⟨htext', hspells'⟩ := h'
    cases hspells' with
    | nil =>
      subst htext'
      obtain ⟨first, more, rfl, -⟩ := htoken.exists_cons
      cases htext
    | cons htoken' hmore' =>
      obtain ⟨rfl, rfl, hrest⟩ := htoken.unique htoken' (Cuts.stops ⟨rfl, hmore⟩)
        (Cuts.stops ⟨rfl, hmore'⟩) (htext.trans htext'.symm)
      obtain ⟨rfl, rfl⟩ := ih ⟨hrest.symm, hmore'⟩ rfl
      exact ⟨rfl, rfl⟩

end

namespace Name

variable {cs : List Char} {ks : List Component}

theorem exists_cuts_of_readComponents (h : readComponents cs = .ok ks) :
    ∃ tokens, Cuts tokens cs ks := by
  fun_induction readComponents cs generalizing ks with
  | case1 =>
    cases h
    exact ⟨[], rfl, .nil⟩
  | case2 => cases h
  | case3 => cases h
  | case4 c cs k rest hk _ more hmore ih =>
    cases h
    obtain ⟨tokens, hcuts⟩ := ih hmore
    obtain ⟨token, htext, hspells, -⟩ := readComponent_eq_ok.mp hk
    exact ⟨token :: tokens, htext ▸ .cons hspells hcuts⟩

theorem readComponents_of_cuts {tokens : List (List Char)} (h : Cuts tokens cs ks) :
    readComponents cs = .ok ks := by
  obtain ⟨rfl, hspells⟩ := h
  induction hspells with
  | nil => simp [readComponents]
  | cons htoken hmore ih =>
    obtain ⟨first, more, rfl, -⟩ := htoken.exists_cons
    refine readComponents_cons_eq_ok.mpr ⟨_, _, _, ?_, ih, rfl⟩
    exact readComponent_eq_ok.mpr ⟨_, rfl, htoken, fun _ => Cuts.stops ⟨rfl, hmore⟩⟩

theorem read_eq_ok : read cs = .ok ks ↔ ks ≠ [] ∧ ∃ tokens, Cuts tokens cs ks := by
  have hread : read cs = .ok ks ↔ ks ≠ [] ∧ readComponents cs = .ok ks := by
    unfold read
    split
    · rename_i hempty
      simp [hempty, eq_comm]
    · rename_i hsome
      constructor
      · intro h
        refine ⟨fun hnil => ?_, h⟩
        exact hsome (hnil ▸ h)
      · exact And.right
  rw [hread]
  refine and_congr_right fun _ => ⟨exists_cuts_of_readComponents, ?_⟩
  rintro ⟨tokens, h⟩
  exact readComponents_of_cuts h

def renderBits (bits : Nat) : List Char := (toString bits).toList

def renderOrder : Option ByteOrder → List Char
  | none => []
  | some .little => ['l']
  | some .big => ['b']

def renderComponent (c : Component) : List Char :=
  c.letter.toChar :: (renderBits c.bits ++ renderOrder c.order)

def render (components : List Component) : List Char := components.flatMap renderComponent

theorem renderBits_eq (bits : Nat) : renderBits bits = Nat.toDigits 10 bits := by
  simp [renderBits, toString, Nat.repr]

theorem decimal_eq (digits : List Char) : decimal digits = Nat.ofDigitChars 10 digits 0 := by
  simp [decimal, Nat.ofDigitChars, Nat.mul_comm]

theorem decimal_renderBits (bits : Nat) : decimal (renderBits bits) = bits := by
  rw [renderBits_eq, decimal_eq, Nat.ofDigitChars_ten_toDigits]

theorem digits_renderBits {bits : Nat} (h : bits ≤ 16) : Digits (renderBits bits) := by
  rw [renderBits_eq]
  have hpos : 0 < (Nat.toDigits 10 bits).length := Nat.length_toDigits_pos
  have hle : (Nat.toDigits 10 bits).length ≤ 2 :=
    (Nat.length_toDigits_le_iff (by decide) (by decide)).mpr (by omega)
  exact ⟨fun d hd => Nat.isDigit_of_mem_toDigits (by decide) (by decide) hd, by omega⟩

theorem orders_renderOrder {bits : Nat} {order : Option ByteOrder}
    (h : order.isSome = true ↔ 8 < bits) : Orders bits (renderOrder order) order := by
  match order with
  | none => exact .single (by simpa using h)
  | some .little => exact .little (h.mp rfl)
  | some .big => exact .big (h.mp rfl)

theorem spells_renderComponent {k : Component} (h : k.WellFormed) : Spells (renderComponent k) k :=
  ⟨_, _, _, rfl, rfl, k.letter.stands, digits_renderBits h.range.2, decimal_renderBits k.bits, h.range,
    orders_renderOrder h.order⟩

theorem cuts_render (h : ∀ k ∈ ks, k.WellFormed) : Cuts (ks.map renderComponent) (render ks) ks := by
  induction ks with
  | nil => exact ⟨rfl, .nil⟩
  | cons k ks ih =>
    obtain ⟨hk, hks⟩ := List.forall_mem_cons.mp h
    exact .cons (spells_renderComponent hk) (ih hks)

end Name

theorem parse_eq_ok {s : String} {ks : List Component} :
    parse s = .ok ks ↔ ks ≠ [] ∧ ∃ tokens, Cuts tokens s.toList ks := by
  rw [← Name.read_eq_ok]
  unfold parse
  cases Name.read s.toList with
  | error why => simp [Except.mapError_error]
  | ok more => simp [Except.mapError_ok]

theorem parse_eq_error {s : String} {why : Fault} (h : parse s = .error why) :
    ∃ reason, why = .unsupported (.chromaName s reason) := by
  unfold parse at h
  cases hread : Name.read s.toList with
  | error reason =>
    rw [hread] at h
    cases h
    exact ⟨reason, rfl⟩
  | ok more =>
    rw [hread] at h
    cases h

example : parse "v210" = .error (.unsupported (.chromaName "v210" .depthTooLarge)) := by cbv

/-- The names that are read are the texts that can be cut into tokens, at least one. There is one way
to cut a text, and the components are what the tokens spell; all other names are unsupported. So
components are read as they are rendered, and names that stand one behind the other are read as such. -/
theorem parse_reads_spellings :
    (∀ s ks, parse s = .ok ks ↔ ks ≠ [] ∧ ∃ tokens, Cuts tokens s.toList ks) ∧
    (∀ cs tokens tokens' ks ks', Cuts tokens cs ks → Cuts tokens' cs ks' →
      tokens = tokens' ∧ ks = ks') ∧
    (∀ s, (¬ ∃ ks tokens, ks ≠ [] ∧ Cuts tokens s.toList ks) →
      ∃ reason, parse s = .error (.unsupported (.chromaName s reason))) ∧
    (∀ ks, ks ≠ [] → (∀ k ∈ ks, k.WellFormed) → parse (String.ofList (Name.render ks)) = .ok ks) ∧
    (∀ s t ks ls, parse s = .ok ks → parse t = .ok ls → parse (s ++ t) = .ok (ks ++ ls)) := by
  refine ⟨fun s ks => parse_eq_ok, fun _ _ _ _ _ h h' => h.unique h', ?others, ?rendered, ?joined⟩
  case others =>
    intro s hs
    cases hparse : parse s with
    | error why =>
      obtain ⟨reason, rfl⟩ := parse_eq_error hparse
      exact ⟨reason, rfl⟩
    | ok ks =>
      obtain ⟨hsome, tokens, hcuts⟩ := parse_eq_ok.mp hparse
      exact absurd ⟨ks, tokens, hsome, hcuts⟩ hs
  case rendered =>
    intro ks hsome hks
    rw [parse_eq_ok, String.toList_ofList]
    exact ⟨hsome, _, Name.cuts_render hks⟩
  case joined =>
    intro s t ks ls hs ht
    obtain ⟨hsome, tokens, hcuts⟩ := parse_eq_ok.mp hs
    obtain ⟨-, tokens', hcuts'⟩ := parse_eq_ok.mp ht
    rw [parse_eq_ok, String.toList_append]
    exact ⟨by simp [hsome], _, hcuts.append hcuts'⟩

theorem parse_b_three_times : parse "b8b10b" = .ok [⟨.b, 8, none⟩, ⟨.b, 10, some .big⟩] := by
  obtain ⟨-, -, -, hrendered, hjoined⟩ := parse_reads_spellings
  have hshallow : parse "b8" = .ok [⟨.b, 8, none⟩] :=
    hrendered [⟨.b, 8, none⟩] (by decide) (List.forall_mem_singleton.mpr ⟨by decide, by decide⟩)
  have hdeep : parse "b10b" = .ok [⟨.b, 10, some .big⟩] :=
    hrendered [⟨.b, 10, some .big⟩] (by decide) (List.forall_mem_singleton.mpr ⟨by decide, by decide⟩)
  exact hjoined "b8" "b10b" _ _ hshallow hdeep

end Planar.Chroma
