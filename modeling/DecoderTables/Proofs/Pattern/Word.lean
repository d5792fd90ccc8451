import DecoderTables.Pattern.Word
import DecoderTables.Proofs.Pattern.Agreement

/-!
The arithmetic of a run that fits into a half-word stays in the range of its words, so that it gives
the same mask and value as the arithmetic without bounds.
-/

namespace DecoderTables

namespace Word

theorem sub?_eq_some {total part : Nat} (inside : part ≤ total) :
    sub? total part = some (total - part) :=
  if_pos inside

theorem shiftLeft?_ofNat {width value places : Nat} (short : places < width)
    (fits : value * 2 ^ places < 2 ^ width) :
    shiftLeft? (BitVec.ofNat width value) places =
      some (BitVec.ofNat width (value * 2 ^ places)) := by
  have small : value < 2 ^ width :=
    Nat.lt_of_le_of_lt (Nat.le_mul_of_pos_right value (Nat.two_pow_pos places)) fits
  have number : (BitVec.ofNat width value).toNat <<< places = value * 2 ^ places := by
    rw [BitVec.toNat_ofNat, Nat.mod_eq_of_lt small, Nat.shiftLeft_eq]
  rw [shiftLeft?, if_pos, Option.some_inj]
  · apply BitVec.eq_of_toNat_eq
    rw [BitVec.toNat_shiftLeft, number, BitVec.toNat_ofNat]
  · rw [number, Nat.one_shiftLeft]
    exact ⟨short, fits⟩

theorem half?_ofNat {value : Nat} (fits : value < 2 ^ 16) :
    half? (BitVec.ofNat 32 value) = some (BitVec.ofNat 16 value) := by
  have small : value < 2 ^ 32 := Nat.lt_trans fits (by decide)
  have number : (BitVec.ofNat 32 value).toNat = value := by
    rw [BitVec.toNat_ofNat, Nat.mod_eq_of_lt small]
  rw [half?, if_pos, Option.some_inj]
  · apply BitVec.eq_of_toNat_eq
    rw [BitVec.toNat_setWidth, number, BitVec.toNat_ofNat]
  · rw [number, Nat.one_shiftLeft]
    exact fits

/-- What is left of 32 ones. -/
theorem shiftRight?_allOnes {count : Nat} (positive : 0 < count) (short : count ≤ 16) :
    shiftRight? (BitVec.allOnes 32) (32 - count) = some (BitVec.ofNat 32 (2 ^ count - 1)) := by
  have table : ∀ count < 17, 0 < count →
      BitVec.allOnes 32 >>> (32 - count) = BitVec.ofNat 32 (2 ^ count - 1) := by decide
  rw [shiftRight?, if_pos (by omega), table count (by omega) positive]

end Word

namespace Check

/-- Moved up to the bit `low`, a number of `width` bits stays within a half-word. -/
theorem moved_lt {low width number : Nat} (bound : number < 2 ^ width) (within : width + low ≤ 16) :
    number * 2 ^ low < 2 ^ 16 := by
  calc number * 2 ^ low
      < 2 ^ width * 2 ^ low := Nat.mul_lt_mul_of_pos_right bound (Nat.two_pow_pos low)
    _ = 2 ^ (width + low) := (Nat.pow_add 2 width low).symm
    _ ≤ 2 ^ 16 := Nat.pow_le_pow_right (by decide) within

theorem words?_bit {place : Nat} (inside : place < 16) (value : Bool) :
    (bit place value).words? = some ((bit place value).mask, (bit place value).value) := by
  have one : 1 * 2 ^ place < 2 ^ 16 := moved_lt (by decide : 1 < 2 ^ 1) (by omega)
  have digit : value.toNat < 2 ^ 1 := Nat.lt_succ_of_le value.toNat_le
  have moved : value.toNat * 2 ^ place < 2 ^ 16 := moved_lt digit (by omega)
  simp only [words?, Word.shiftLeft?_ofNat inside one, Word.shiftLeft?_ofNat inside moved,
    Option.bind_eq_bind, Option.bind_some, Check.mask, Check.value, Nat.shiftLeft_eq]
  rfl

theorem words?_range {high low number : Nat} {literal : String} (ordered : low ≤ high)
    (inside : high < 16) (read : literalValue? literal = some number)
    (bound : number < 2 ^ (high - low + 1)) :
    (range high low literal).words? =
      some ((range high low literal).mask, (range high low literal).value) := by
  have positive := Nat.two_pow_pos (high - low + 1)
  have ones : (2 ^ (high - low + 1) - 1) * 2 ^ low < 2 ^ 16 :=
    moved_lt (Nat.sub_lt positive Nat.one_pos) (by omega)
  have moved : number * 2 ^ low < 2 ^ 16 := moved_lt bound (by omega)
  have wide : 2 ^ 16 < 2 ^ 32 := by decide
  have spare : Word.sub? 32 (high - low + 1) = some (32 - (high - low + 1)) :=
    Word.sub?_eq_some (by omega)
  have left := Word.shiftRight?_allOnes (Nat.succ_pos (high - low)) (by omega)
  have short : low < 32 := by omega
  simp only [words?, Word.sub?_eq_some ordered, spare, left,
    Word.shiftLeft?_ofNat short (Nat.lt_trans ones wide), read, Option.getD_some,
    Word.shiftLeft?_ofNat short (Nat.lt_trans moved wide), Word.half?_ofNat ones,
    Word.half?_ofNat moved, Option.bind_eq_bind, Option.bind_some, Check.mask, Check.value,
    Nat.shiftLeft_eq, Nat.one_mul]
  rfl

end Check

namespace Run.Fits

variable {run : Run} {width value : Nat}

theorem stop_eq (fits : run.Fits width value) : run.stop = run.start + width - 1 := by
  rw [Run.stop, fits.width_eq]

theorem width?_eq (fits : run.Fits width value) : run.width? = some run.width := by
  have positive := fits.positive
  have stop := fits.stop_eq
  rw [Run.width?, Word.sub?_eq_some (by omega), fits.width_eq, Option.map_some]
  congr 1
  omega

theorem high?_eq (fits : run.Fits width value) : run.high? = some run.high := by
  have positive := fits.positive
  have within := fits.within
  apply Word.sub?_eq_some
  rw [halfWidth]
  omega

theorem low?_eq (fits : run.Fits width value) : run.low? = some run.low := by
  have within := fits.within
  have stop := fits.stop_eq
  apply Word.sub?_eq_some
  rw [halfWidth]
  omega

theorem words?_eq (fits : run.Fits width value) (half : Half) :
    (run.predicate half).check.words? =
      some ((run.predicate half).check.mask, (run.predicate half).check.value) := by
  have positive := fits.positive
  have within := fits.within
  have low := fits.low_eq
  have high := fits.high_eq
  rw [Run.predicate]
  split
  · exact Check.words?_bit (by omega) _
  · have read : literalValue? run.literal = some value := by
      rw [fits.literal, literalValue?_binaryDigits width value positive (by omega) fits.bound]
    have span : run.high - run.low + 1 = width := by omega
    exact Check.words?_range (by omega) (by omega) read (span ▸ fits.bound)

end Run.Fits

end DecoderTables
