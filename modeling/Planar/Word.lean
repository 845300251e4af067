set_option autoImplicit false

/-!
The limits of 64-bit words. Sizes are natural numbers and offsets are integers everywhere; a limit
appears where a rule of the library names it, and where a result that no word can hold would go on.
-/

namespace Planar.Word

def maxUnsigned : Nat := 0xffffffffffffffff

/-- The largest signed word, which also bounds the bytes of one block of memory. -/
def maxSigned : Nat := 0x7fffffffffffffff

def minSigned : Int := -0x8000000000000000

/-- Sums and products of sizes stop at the largest word. -/
def saturate (n : Nat) : Nat := min n maxUnsigned

/-- The opposite of an offset, which stops at the largest signed word. -/
def negate (i : Int) : Int := min (-i) maxSigned

/-- What is left of a sum or a product if nobody asks whether a word can hold it. -/
def wrap (n : Nat) : Nat := n % (maxUnsigned + 1)

/-- The word read as a two's complement number. -/
def toSigned (n : Nat) : Int := Int.bmod n (maxUnsigned + 1)

theorem saturate_le (n : Nat) : saturate n ≤ maxUnsigned := Nat.min_le_right ..

theorem wrap_le (n : Nat) : wrap n ≤ maxUnsigned := Nat.le_of_lt_succ (Nat.mod_lt n (Nat.succ_pos _))

theorem wrap_of_le {n : Nat} (h : n ≤ maxUnsigned) : wrap n = n :=
  Nat.mod_eq_of_lt (Nat.lt_succ_of_le h)

theorem saturate_of_le {n : Nat} (h : n ≤ maxUnsigned) : saturate n = n := Nat.min_eq_left h

theorem toSigned_of_le {n : Nat} (h : n ≤ maxSigned) : toSigned n = n := by
  unfold maxSigned at h
  unfold toSigned maxUnsigned
  exact Int.bmod_eq_of_le (by omega) (by omega)

end Planar.Word
