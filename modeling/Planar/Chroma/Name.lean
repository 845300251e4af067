set_option autoImplicit false

/-!
Names of planes. A name lists the samples of one macropixel: a letter, the bits of the sample
in one or two digits, and the byte order of samples that need two bytes.
-/

namespace Planar.Chroma

inductive Letter where
  | y | u | v | a | r | g | b
  deriving DecidableEq, Repr

namespace Letter

def toChar : Letter → Char
  | .y => 'y'
  | .u => 'u'
  | .v => 'v'
  | .a => 'a'
  | .r => 'r'
  | .g => 'g'
  | .b => 'b'

def ofChar? : Char → Option Letter
  | 'y' => some .y
  | 'u' => some .u
  | 'v' => some .v
  | 'a' => some .a
  | 'r' => some .r
  | 'g' => some .g
  | 'b' => some .b
  | _ => none

@[simp] theorem ofChar?_toChar (l : Letter) : ofChar? l.toChar = some l := by cases l <;> rfl

end Letter

inductive Role where
  | luma | colorDifference | alpha | primary
  deriving DecidableEq, Repr

def Letter.role : Letter → Role
  | .y => .luma
  | .u | .v => .colorDifference
  | .a => .alpha
  | .r | .g | .b => .primary

inductive ByteOrder where
  | little | big
  deriving DecidableEq, Repr

structure Component where
  letter : Letter
  bits : Nat
  order : Option ByteOrder
  deriving DecidableEq, Repr

inductive NameFault where
  | unknownLetter
  | depthTooLarge
  | depthOutOfRange
  | missingByteOrder
  | emptyName
  deriving DecidableEq, Repr

def NameFault.message : NameFault → String
  | .unknownLetter => "unknown component letter"
  | .depthTooLarge => "bit depth too large"
  | .depthOutOfRange => "bit depth must be 1..=16"
  | .missingByteOrder => "missing endianness suffix"
  | .emptyName => "empty name"

namespace Name

def decimal (digits : List Char) : Nat :=
  digits.foldl (fun n c => n * 10 + (c.toNat - '0'.toNat)) 0

/-- Digits are read as far as they go, so a third one is refused and not left over. -/
def readBits (cs : List Char) : Except NameFault (Nat × List Char) :=
  let digits := cs.takeWhile Char.isDigit
  let bits := decimal digits
  if digits.length > 2 then .error .depthTooLarge
  else if bits = 0 ∨ bits > 16 then .error .depthOutOfRange
  else .ok (bits, cs.dropWhile Char.isDigit)

/-- Only samples of two bytes have an order; behind fewer bits a `b` is the next component. -/
def readOrder (bits : Nat) (cs : List Char) : Except NameFault (Option ByteOrder × List Char) :=
  if bits ≤ 8 then .ok (none, cs)
  else match cs with
    | 'l' :: rest => .ok (some .little, rest)
    | 'b' :: rest => .ok (some .big, rest)
    | _ => .error .missingByteOrder

def readComponent (c : Char) (cs : List Char) : Except NameFault (Component × List Char) := do
  let some letter := Letter.ofChar? c | .error .unknownLetter
  let (bits, rest) ← readBits cs
  let (order, rest) ← readOrder bits rest
  return (⟨letter, bits, order⟩, rest)

theorem length_le_of_readBits {cs rest : List Char} {bits : Nat}
    (h : readBits cs = .ok (bits, rest)) : rest.length ≤ cs.length := by
  simp only [readBits] at h
  split at h
  · cases h
  · split at h
    · cases h
    · cases h
      exact (List.dropWhile_suffix _).length_le

theorem length_le_of_readOrder {bits : Nat} {cs rest : List Char} {order : Option ByteOrder}
    (h : readOrder bits cs = .ok (order, rest)) : rest.length ≤ cs.length := by
  unfold readOrder at h
  split at h
  · cases h; exact Nat.le_refl _
  · split at h <;> cases h <;> simp

theorem length_le_of_readComponent {c : Char} {cs rest : List Char} {component : Component}
    (h : readComponent c cs = .ok (component, rest)) : rest.length ≤ cs.length := by
  unfold readComponent at h
  cases hl : Letter.ofChar? c with
  | none => simp [hl] at h
  | some letter =>
    cases hb : readBits cs with
    | error e => simp [hl, hb, bind, Except.bind] at h
    | ok p =>
      cases ho : readOrder p.1 p.2 with
      | error e => simp [hl, hb, ho, bind, Except.bind] at h
      | ok q =>
        simp [hl, hb, ho, bind, Except.bind, pure, Except.pure] at h
        have h₁ := length_le_of_readBits hb
        have h₂ := length_le_of_readOrder ho
        rw [← h.2]
        omega

def readComponents : List Char → Except NameFault (List Component)
  | [] => .ok []
  | c :: cs =>
    match h : readComponent c cs with
    | .error e => .error e
    | .ok (component, rest) =>
      have := length_le_of_readComponent h
      match readComponents rest with
      | .error e => .error e
      | .ok more => .ok (component :: more)
termination_by cs => cs.length
decreasing_by simp only [List.length_cons]; omega

def read (cs : List Char) : Except NameFault (List Component) :=
  match readComponents cs with
  | .ok [] => .error .emptyName
  | result => result

end Name

end Planar.Chroma
