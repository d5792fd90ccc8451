import DecoderTables.Pattern.Run
import DecoderTables.Proofs.BinaryDigits

/-!
What the mask and the value of a run ask of a half-word, bit by bit. A run of one digit and a run
of several have the same description, so no later statement tells the two kinds of check apart.
-/

namespace DecoderTables

/-- The half-word of an encoding that a predicate looks at. -/
def Half.select (half : Half) (lo hi : HalfWord) : HalfWord :=
  match half with
  | .lo => lo
  | .hi => hi

theorem Predicate.accepts_iff (predicate : Predicate) (lo hi : HalfWord) :
    predicate.accepts lo hi = true ↔
      predicate.half.select lo hi &&& predicate.check.mask = predicate.check.value := by
  cases half : predicate.half <;> simp [Predicate.accepts, Half.select, half]

/-- The half-word whose bits from `low` upward are the lowest `width` bits of a number. -/
def field (low width value : Nat) : HalfWord :=
  BitVec.ofNat 16 (value % 2 ^ width * 2 ^ low)

theorem getLsbD_field (low width value place : Nat) :
    (field low width value).getLsbD place =
      (decide (place < 16) && decide (low ≤ place) && decide (place - low < width) &&
        value.testBit (place - low)) := by
  simp only [field, BitVec.getLsbD_ofNat, Nat.testBit_mul_two_pow, Nat.testBit_mod_two_pow,
    Bool.and_assoc]

theorem field_allOnes (low width : Nat) :
    field low width (2 ^ width - 1) = BitVec.ofNat 16 ((2 ^ width - 1) * 2 ^ low) := by
  have positive := Nat.two_pow_pos width
  rw [field, Nat.mod_eq_of_lt (by omega)]

/-- A half-word agrees with a field under its mask when it has the bits of the field. -/
theorem and_field_eq_iff (raw : HalfWord) (low width value : Nat) (fits : low + width ≤ 16) :
    raw &&& field low width (2 ^ width - 1) = field low width value ↔
      ∀ place < width, raw.getLsbD (low + place) = value.testBit place := by
  rw [BitVec.eq_of_getLsbD_eq_iff]
  simp only [BitVec.getLsbD_and, getLsbD_field, Nat.testBit_two_pow_sub_one]
  apply Iff.intro
  · intro same place bound
    have here := same (low + place) (by omega)
    simpa [bound, show low + place < 16 by omega] using here
  · intro same place inside
    by_cases above : low ≤ place
    · by_cases below : place - low < width
      · have here := same (place - low) below
        rw [Nat.add_sub_cancel' above] at here
        simp only [here, above, below, inside, decide_true, Bool.true_and, Bool.and_true]
      · simp [below]
    · simp [above]

theorem utf8Length_isDigits (digits : List Char) (only : IsDigits digits) :
    Text.utf8Length digits = digits.length := by
  induction digits with
  | nil => rfl
  | cons c digits ih =>
    have tail := ih fun other member => only other (List.mem_cons_of_mem _ member)
    have one : c.utf8Size = 1 := by
      rcases only c (by simp) with rfl | rfl <;> rfl
    rw [Text.utf8Length_cons, List.length_cons, tail, one]
    omega

theorem utf8ByteSize_ofList (text : List Char) :
    (String.ofList text).utf8ByteSize = Text.utf8Length text := by
  induction text with
  | nil => rfl
  | cons c text ih =>
    rw [← List.singleton_append, String.ofList_append, String.utf8ByteSize_append, ih,
      Text.utf8Length_append]
    simp [Text.utf8Length]

theorem literalValue?_isDigits (digits : List Char) (only : IsDigits digits)
    (nonempty : digits ≠ []) :
    literalValue? (String.ofList digits) = (binaryDigits? digits).filter (· < 2 ^ 32) := by
  unfold literalValue?
  rw [String.toList_ofList]
  cases digits with
  | nil => exact absurd rfl nonempty
  | cons c digits =>
    rcases only c (by simp) with rfl | rfl <;> rfl

theorem literalValue?_binaryDigits (width value : Nat) (positive : 0 < width) (small : width ≤ 16)
    (bound : value < 2 ^ width) :
    literalValue? (String.ofList (binaryDigits width value)) = some value := by
  have nonempty : binaryDigits width value ≠ [] := by
    intro empty
    have length := congrArg List.length empty
    simp only [length_binaryDigits, List.length_nil] at length
    omega
  have fits : value < 2 ^ 32 :=
    Nat.lt_of_lt_of_le bound (Nat.pow_le_pow_right (by decide) (by omega))
  rw [literalValue?_isDigits _ (isDigits_binaryDigits width value) nonempty,
    binaryDigits?_binaryDigits width value bound, Option.filter_some]
  exact if_pos (decide_eq_true fits)

/-- A run of digits that lies within a half-word. -/
structure Run.Fits (run : Run) (width value : Nat) : Prop where
  literal : run.literal = String.ofList (binaryDigits width value)
  bound : value < 2 ^ width
  positive : 0 < width
  within : run.start + width ≤ 16

namespace Run.Fits

variable {run : Run} {width value : Nat}

theorem width_eq (fits : run.Fits width value) : run.width = width := by
  rw [Run.width, fits.literal, utf8ByteSize_ofList,
    utf8Length_isDigits _ (isDigits_binaryDigits width value), length_binaryDigits]

theorem low_eq (fits : run.Fits width value) : run.low = 16 - (run.start + width) := by
  have positive := fits.positive
  rw [Run.low, Run.stop, fits.width_eq, halfWidth]
  omega

theorem high_eq (fits : run.Fits width value) : run.high = run.low + width - 1 := by
  have positive := fits.positive
  have within := fits.within
  rw [fits.low_eq, Run.high, halfWidth]
  omega

theorem mask_eq (fits : run.Fits width value) (half : Half) :
    (run.predicate half).check.mask = field run.low width (2 ^ width - 1) := by
  have positive := fits.positive
  rw [field_allOnes, Run.predicate]
  split
  · next one =>
      obtain rfl : width = 1 := fits.width_eq.symm.trans one
      simp [Check.mask, fits.high_eq, Nat.shiftLeft_eq]
  · have span : run.high - run.low + 1 = width := by
      rw [fits.high_eq]
      omega
    simp only [Check.mask, span, Nat.shiftLeft_eq, Nat.one_mul]

theorem bit_eq (fits : run.Fits 1 value) : (decide (run.literal = "1")).toNat = value := by
  have bound := fits.bound
  rw [fits.literal]
  rcases (by omega : value = 0 ∨ value = 1) with rfl | rfl
  · decide
  · decide

theorem value_eq (fits : run.Fits width value) (half : Half) :
    (run.predicate half).check.value = field run.low width value := by
  have positive := fits.positive
  have within := fits.within
  have bound := fits.bound
  rw [field, Nat.mod_eq_of_lt bound, Run.predicate]
  split
  · next one =>
      obtain rfl : width = 1 := fits.width_eq.symm.trans one
      simp [Check.value, fits.high_eq, fits.bit_eq, Nat.shiftLeft_eq]
  · simp only [Check.value, fits.literal, Nat.shiftLeft_eq,
      literalValue?_binaryDigits width value positive (by omega) bound, Option.getD_some]

/-- A run accepts a half-word that has the bits of its number at its place. -/
theorem accepts_iff (fits : run.Fits width value) (half : Half) (lo hi : HalfWord) :
    (run.predicate half).accepts lo hi = true ↔
      ∀ place < width, (half.select lo hi).getLsbD (run.low + place) = value.testBit place := by
  have within := fits.within
  have low := fits.low_eq
  rw [Predicate.accepts_iff, fits.mask_eq, fits.value_eq]
  exact and_field_eq_iff _ _ _ _ (by omega)

end Run.Fits

end DecoderTables
