import DecoderTables.Pattern.Predicate
import Mathlib.Algebra.Group.Nat.Defs
import Mathlib.Data.List.Induction

/-!
Binary digits of a fixed width. They read back as the number that they are made from, and every
text of zeros and ones is made in this way.
-/

namespace DecoderTables

/-- The lowest `width` bits of a number as digits, the most significant first. -/
def binaryDigits (width value : Nat) : List Char :=
  (List.range width).reverse.map fun place => binaryDigit (value.testBit place)

def IsDigits (text : List Char) : Prop :=
  ∀ c ∈ text, c = '0' ∨ c = '1'

theorem isDigits_binaryDigits (width value : Nat) : IsDigits (binaryDigits width value) := by
  intro c member
  obtain ⟨place, _, rfl⟩ := List.mem_map.mp member
  cases value.testBit place
  · exact Or.inl rfl
  · exact Or.inr rfl

@[simp] theorem length_binaryDigits (width value : Nat) :
    (binaryDigits width value).length = width := by
  simp [binaryDigits]

/-- The last digit is the lowest bit; those before it belong to the half. -/
theorem binaryDigits_succ (width value : Nat) :
    binaryDigits (width + 1) value =
      binaryDigits width (value / 2) ++ [binaryDigit (value.testBit 0)] := by
  simp only [binaryDigits, List.range_succ_eq_map, List.reverse_cons, List.map_append,
    List.map_reverse, List.map_map, List.map_cons, List.map_nil]
  congr 3
  funext place
  simp only [Function.comp_apply, Nat.succ_eq_add_one, Nat.testBit_add_one]

theorem getElem_binaryDigits (width value index : Nat)
    (bound : index < (binaryDigits width value).length) :
    (binaryDigits width value)[index] = binaryDigit (value.testBit (width - 1 - index)) := by
  simp [binaryDigits]

theorem binaryDigits?_append_digit (digits : List Char) (value : Nat) (bit : Bool)
    (read : binaryDigits? digits = some value) :
    binaryDigits? (digits ++ [binaryDigit bit]) = some (2 * value + bit.toNat) := by
  unfold binaryDigits? at read ⊢
  rw [List.foldlM_append, read]
  cases bit <;> rfl

theorem binaryDigits?_binaryDigits (width value : Nat) (bound : value < 2 ^ width) :
    binaryDigits? (binaryDigits width value) = some value := by
  induction width generalizing value with
  | zero =>
    have zero : value = 0 := by simpa using bound
    rw [zero]
    rfl
  | succ width ih =>
    have half : value / 2 < 2 ^ width := by
      rw [Nat.pow_succ] at bound
      omega
    rw [binaryDigits_succ, binaryDigits?_append_digit _ _ _ (ih _ half), Nat.testBit_zero]
    congr 1
    by_cases odd : value % 2 = 1
    · simp only [odd, decide_true, Bool.toNat_true]
      omega
    · simp only [odd, decide_false, Bool.toNat_false]
      omega

theorem exists_eq_binaryDigits (digits : List Char) (only : IsDigits digits) :
    ∃ value < 2 ^ digits.length, digits = binaryDigits digits.length value := by
  induction digits using List.reverseRecOn with
  | nil => exact ⟨0, by decide, rfl⟩
  | append_singleton digits c ih =>
    obtain ⟨value, bound, same⟩ := ih fun other member => only other (List.mem_append_left _ member)
    obtain ⟨bit, rfl⟩ : ∃ bit, c = binaryDigit bit := by
      rcases only c (by simp) with rfl | rfl
      · exact ⟨false, rfl⟩
      · exact ⟨true, rfl⟩
    have small := bit.toNat_le
    have lowest : (2 * value + bit.toNat).testBit 0 = bit := by
      cases bit <;> simp [Nat.testBit_zero]
    have half : (2 * value + bit.toNat) / 2 = value := by omega
    refine ⟨2 * value + bit.toNat, ?_, ?_⟩
    · rw [List.length_append, List.length_singleton, Nat.pow_succ]
      omega
    · rw [List.length_append, List.length_singleton, binaryDigits_succ, half, lowest, ← same]

end DecoderTables
