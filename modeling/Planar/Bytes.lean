set_option autoImplicit false

/-!
Blocks of bytes. Every write of the library is `Bytes.put`, and `getElem?_put` says which
bytes it changes.
-/

namespace Planar

abbrev Bytes := Array UInt8

namespace Bytes

/-- Overwrites from `start` on. What would fall behind the end is lost. -/
def put (data : Bytes) (start : Nat) : List UInt8 → Bytes
  | [] => data
  | x :: xs => put (data.setIfInBounds start x) (start + 1) xs

@[simp] theorem size_put (data : Bytes) (start : Nat) (xs : List UInt8) :
    (put data start xs).size = data.size := by
  induction xs generalizing data start with
  | nil => rfl
  | cons x xs ih => rw [put, ih, Array.size_setIfInBounds]

theorem getElem?_put (data : Bytes) (start : Nat) (xs : List UInt8) (i : Nat) :
    (put data start xs)[i]? =
      if start ≤ i ∧ i < start + xs.length ∧ i < data.size then xs[i - start]? else data[i]? := by
  induction xs generalizing data start with
  | nil => simp [put]; omega
  | cons x xs ih =>
    rw [put, ih, Array.size_setIfInBounds, Array.getElem?_setIfInBounds, List.length_cons]
    by_cases h : start = i
    · subst h
      have hn : ¬ start + 1 ≤ start := by omega
      by_cases hs : start < data.size <;> simp [hs, hn]
    · by_cases hlt : start < i
      · obtain ⟨k, rfl⟩ := Nat.exists_eq_add_of_lt hlt
        have h₁ : start + k + 1 - (start + 1) = k := by omega
        have h₂ : start + k + 1 - start = k + 1 := by omega
        have h₃ : start + 1 ≤ start + k + 1 := by omega
        have h₄ : start ≤ start + k + 1 := by omega
        have h₅ : start + k + 1 < start + 1 + xs.length ↔ start + k + 1 < start + (xs.length + 1) := by
          omega
        simp only [h₁, h₂, h₃, h₄, h₅, h, List.getElem?_cons_succ, true_and, if_false]
      · have h₁ : ¬ start + 1 ≤ i := by omega
        have h₂ : ¬ start ≤ i := by omega
        simp [h₁, h₂, h]

def window (data : Bytes) (start count : Nat) : Bytes := data.extract start (start + count)

theorem size_window (data : Bytes) {start count : Nat} (h : start + count ≤ data.size) :
    (window data start count).size = count := by
  simp only [window, Array.size_extract]; omega

end Bytes

end Planar
