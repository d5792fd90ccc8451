import DecoderTables.Proofs.Header.Token
import DecoderTables.Proofs.Pattern.Agreement

/-!
The assertions of a decoder. Each is read back from its line as a comparison of some bits with a
number, and all of them together hold for the encodings that the pattern accepts.
-/

namespace DecoderTables.Header

/-- The bits that an assertion looks at, aligned right. -/
inductive Operand where
  | whole (half : Half)
  | bit (place : Nat) (half : Half)
  | range (high low : Nat) (half : Half)
deriving DecidableEq

def Operand.value (lo hi : HalfWord) : Operand → Nat
  | .whole half => (half.select lo hi).toNat
  | .bit place half => ((half.select lo hi).toNat >>> place) &&& 1
  | .range high low half => ((half.select lo hi).extractLsb high low).toNat

structure Assertion where
  operand : Operand
  expected : Nat
deriving DecidableEq

namespace Assertion

def holds (assertion : Assertion) (lo hi : HalfWord) : Bool :=
  assertion.operand.value lo hi = assertion.expected

def half? (word : List Char) : Option Half :=
  if word = "low".toList then some .lo else if word = "high".toList then some .hi else none

/-- The assertion of a line, in one of three forms. -/
def read? (line : String) : Option Assertion :=
  match capture "assert(rinstr._ == _);" line with
  | some [half, number] => do return ⟨.whole (← half? half), ← numeral? number⟩
  | _ =>
      match capture "assert((Bm16::IsolateBit<_>(rinstr._)) == _);" line with
      | some [place, half, number] => do
          return ⟨.bit (← numeral? place) (← half? half), ← numeral? number⟩
      | _ =>
          match capture "assert((Bm16::ExtractBits1R<_, _>(rinstr._)) == _);" line with
          | some [high, low, half, number] => do
              return ⟨.range (← numeral? high) (← numeral? low) (← half? half), ← numeral? number⟩
          | _ => none

end Assertion

/-- Whether all assertions of some lines hold for an encoding, if every line is an assertion. -/
def assertionsHold? (lo hi : HalfWord) : List String → Option Bool
  | [] => some true
  | line :: lines => do
      let assertion ← Assertion.read? line
      let others ← assertionsHold? lo hi lines
      return assertion.holds lo hi && others

theorem assertionsHold?_append (lo hi : HalfWord) (first second : List String) (value : Bool)
    (holds : assertionsHold? lo hi first = some value) :
    assertionsHold? lo hi (first ++ second) =
      (assertionsHold? lo hi second).map (value && ·) := by
  induction first generalizing value with
  | nil =>
    cases holds
    simp
  | cons line first ih =>
    simp only [assertionsHold?, Option.bind_eq_bind, Option.bind_eq_some_iff, Option.pure_def,
      Option.some.injEq] at holds
    obtain ⟨assertion, read, others, rest, rfl⟩ := holds
    simp only [List.cons_append, assertionsHold?, read, ih others rest]
    cases assertionsHold? lo hi second <;> simp [Bool.and_assoc]

/-- The word for a half-word of an instruction. -/
def halfName : Half → List Char
  | .lo => "low".toList
  | .hi => "high".toList

theorem half?_halfName (half : Half) : Assertion.half? (halfName half) = some half := by
  cases half <;> rfl

theorem tokens_whole (half : Half) (digits : List Char) (only : IsDigits digits) :
    tokens (assertion ⟨half, .range 15 0 (String.ofList digits)⟩) =
      [.word "assert".toList, .symbol '(', .word "rinstr".toList, .symbol '.',
        .word (halfName half), .symbol '=', .symbol '=', .word ('0' :: 'b' :: digits ++ ['U']),
        .symbol ')', .symbol ';'] := by
  have number := fun word rest => tokensFrom_append word digits rest (isWord_of_isDigits only)
  cases half <;>
    simp [assertion, condition, Check.isFull, halfWidth, tokens, rawName, halfName, tokensFrom,
      isWordChar, Token.ofWord, number]

theorem tokens_bit (half : Half) (place : Nat) (value : Bool) :
    tokens (assertion ⟨half, .bit place value⟩) =
      [.word "assert".toList, .symbol '(', .symbol '(', .word "Bm16".toList, .symbol ':',
        .symbol ':', .word "IsolateBit".toList, .symbol '<',
        .word (Nat.toDigits 10 place ++ ['U']), .symbol '>', .symbol '(', .word "rinstr".toList,
        .symbol '.', .word (halfName half), .symbol ')', .symbol ')', .symbol '=', .symbol '=',
        .word ('0' :: 'b' :: [binaryDigit value] ++ ['U']), .symbol ')', .symbol ';'] := by
  have number := fun word rest => tokensFrom_append word _ rest (isWord_toDigits place)
  cases half <;> cases value <;>
    simp [assertion, condition, tokens, rawName, halfName, tokensFrom, isWordChar, Token.ofWord,
      number, binaryDigit, Char.toString]

theorem tokens_range (half : Half) (high low : Nat) (digits : List Char) (only : IsDigits digits)
    (part : (Check.range high low (String.ofList digits)).isFull = false) :
    tokens (assertion ⟨half, .range high low (String.ofList digits)⟩) =
      [.word "assert".toList, .symbol '(', .symbol '(', .word "Bm16".toList, .symbol ':',
        .symbol ':', .word "ExtractBits1R".toList, .symbol '<',
        .word (Nat.toDigits 10 high ++ ['U']), .symbol ',', .word (Nat.toDigits 10 low ++ ['U']),
        .symbol '>', .symbol '(', .word "rinstr".toList, .symbol '.', .word (halfName half),
        .symbol ')', .symbol ')', .symbol '=', .symbol '=',
        .word ('0' :: 'b' :: digits ++ ['U']), .symbol ')', .symbol ';'] := by
  have first := fun word rest => tokensFrom_append word _ rest (isWord_toDigits high)
  have second := fun word rest => tokensFrom_append word _ rest (isWord_toDigits low)
  have number := fun word rest => tokensFrom_append word digits rest (isWord_of_isDigits only)
  cases half <;>
    simp [assertion, condition, part, tokens, rawName, halfName, tokensFrom, isWordChar,
      Token.ofWord, first, second, number]

namespace Assertion

theorem read?_line (level : Nat) (text : String) : read? (line level text) = read? text := by
  simp only [read?, capture, tokens_line]

theorem read?_whole (half : Half) (digits : List Char) (only : IsDigits digits)
    (nonempty : digits ≠ []) :
    read? (assertion ⟨half, .range 15 0 (String.ofList digits)⟩) =
      (binaryDigits? digits).map fun number => ⟨.whole half, number⟩ := by
  have captured : capture "assert(rinstr._ == _);"
      (assertion ⟨half, .range 15 0 (String.ofList digits)⟩) =
      some [halfName half, '0' :: 'b' :: digits ++ ['U']] := by
    rw [capture, tokens_whole half digits only]
    rfl
  rw [read?, captured]
  simp only [half?_halfName, numeral?_binary digits nonempty]
  cases binaryDigits? digits <;> rfl

theorem read?_bit (half : Half) (place : Nat) (value : Bool) :
    read? (assertion ⟨half, .bit place value⟩) = some ⟨.bit place half, value.toNat⟩ := by
  have other : capture "assert(rinstr._ == _);" (assertion ⟨half, .bit place value⟩) = none := by
    rw [capture, tokens_bit]
    rfl
  have captured : capture "assert((Bm16::IsolateBit<_>(rinstr._)) == _);"
      (assertion ⟨half, .bit place value⟩) =
      some [Nat.toDigits 10 place ++ ['U'], halfName half,
        '0' :: 'b' :: [binaryDigit value] ++ ['U']] := by
    rw [capture, tokens_bit]
    rfl
  rw [read?, other, captured]
  simp only [numeral?_toDigits, half?_halfName, numeral?_binary _ (List.cons_ne_nil _ _)]
  cases value <;> rfl

theorem read?_range (half : Half) (high low : Nat) (digits : List Char) (only : IsDigits digits)
    (nonempty : digits ≠ [])
    (part : (Check.range high low (String.ofList digits)).isFull = false) :
    read? (assertion ⟨half, .range high low (String.ofList digits)⟩) =
      (binaryDigits? digits).map fun number => ⟨.range high low half, number⟩ := by
  have read := tokens_range half high low digits only part
  have whole : capture "assert(rinstr._ == _);"
      (assertion ⟨half, .range high low (String.ofList digits)⟩) = none := by
    rw [capture, read]
    rfl
  have bit : capture "assert((Bm16::IsolateBit<_>(rinstr._)) == _);"
      (assertion ⟨half, .range high low (String.ofList digits)⟩) = none := by
    rw [capture, read]
    rfl
  have captured : capture "assert((Bm16::ExtractBits1R<_, _>(rinstr._)) == _);"
      (assertion ⟨half, .range high low (String.ofList digits)⟩) =
      some [Nat.toDigits 10 high ++ ['U'], Nat.toDigits 10 low ++ ['U'], halfName half,
        '0' :: 'b' :: digits ++ ['U']] := by
    rw [capture, read]
    rfl
  rw [read?, whole, bit, captured]
  simp only [numeral?_toDigits, half?_halfName, numeral?_binary digits nonempty]
  cases binaryDigits? digits <;> rfl

end Assertion

/-- Aligned right, some bits of a half-word make a number that has these bits. -/
theorem shiftRight_mod_eq_iff (raw : HalfWord) (low width value : Nat) (bound : value < 2 ^ width) :
    raw.toNat >>> low % 2 ^ width = value ↔
      ∀ place < width, raw.getLsbD (low + place) = value.testBit place := by
  rw [Nat.eq_iff_testBit_eq]
  simp only [Nat.testBit_mod_two_pow, Nat.testBit_shiftRight, BitVec.testBit_toNat]
  apply forall_congr'
  intro place
  by_cases inside : place < width
  · simp [inside]
  · have zero : value.testBit place = false :=
      Nat.testBit_lt_two_pow
        (Nat.lt_of_lt_of_le bound (Nat.pow_le_pow_right (by decide) (by omega)))
    simp [inside, zero]

/-- An assertion about the bits of a run, aligned right, holds where the predicate of the run
accepts. -/
theorem holds_eq_accepts {run : Run} {width value : Nat} (fits : run.Fits width value) (half : Half)
    {operand : Operand} (aligned : ∀ lo hi, operand.value lo hi =
      (half.select lo hi).toNat >>> run.low % 2 ^ width) (lo hi : HalfWord) :
    (⟨operand, value⟩ : Assertion).holds lo hi = (run.predicate half).accepts lo hi := by
  rw [Bool.eq_iff_iff, fits.accepts_iff, ← shiftRight_mod_eq_iff _ _ _ _ fits.bound, ← aligned]
  exact decide_eq_true_iff

/-- The assertion of a run reads back, and it asks for the bits of the run. -/
theorem exists_read?_of_fits {run : Run} {width value : Nat} (fits : run.Fits width value)
    (half : Half) :
    ∃ written, Assertion.read? (assertion (run.predicate half)) = some written ∧
      ∀ lo hi, written.holds lo hi = (run.predicate half).accepts lo hi := by
  have only := isDigits_binaryDigits width value
  have read := binaryDigits?_binaryDigits width value fits.bound
  have positive := fits.positive
  have nonempty : binaryDigits width value ≠ [] := by
    rw [← List.length_pos_iff, length_binaryDigits]
    exact positive
  -- a run of one bit, a run of the whole half-word, and any other are printed in their own ways
  by_cases one : width = 1
  · subst one
    have check : run.predicate half = ⟨half, .bit run.high (run.literal = "1")⟩ := by
      rw [Run.predicate, if_pos fits.width_eq]
    refine ⟨⟨.bit run.high half, value⟩, ?_, holds_eq_accepts fits half ?_⟩
    · rw [check, Assertion.read?_bit, fits.bit_eq]
    · intro lo hi
      rw [Operand.value, fits.high_eq, Nat.and_one_is_mod, Nat.add_sub_cancel, Nat.pow_one]
  · have check : run.predicate half =
        ⟨half, .range run.high run.low (String.ofList (binaryDigits width value))⟩ := by
      rw [Run.predicate, if_neg (fits.width_eq ▸ one), fits.literal]
    cases full : (Check.range run.high run.low (String.ofList (binaryDigits width value))).isFull with
    | true =>
      simp only [Check.isFull, Bool.and_eq_true, decide_eq_true_eq] at full
      obtain ⟨high, low⟩ : run.high = 15 ∧ run.low = 0 := full
      have all : width = 16 := by
        have high_eq := fits.high_eq
        omega
      refine ⟨⟨.whole half, value⟩, ?_, holds_eq_accepts fits half ?_⟩
      · rw [check, high, low, Assertion.read?_whole half _ only nonempty, read]
        rfl
      · intro lo hi
        rw [Operand.value, low, all, Nat.shiftRight_zero, Nat.mod_eq_of_lt (BitVec.isLt _)]
    | false =>
      refine ⟨⟨.range run.high run.low half, value⟩, ?_, holds_eq_accepts fits half ?_⟩
      · rw [check, Assertion.read?_range half _ _ _ only nonempty full, read]
        rfl
      · intro lo hi
        have span : run.high - run.low + 1 = width := by
          rw [fits.high_eq]
          omega
        rw [Operand.value, BitVec.extractLsb_toNat, span]

theorem assertionsHold?_of_fits (level : Nat) (half : Half) (lo hi : HalfWord) (found : List Run)
    (fit : ∀ run ∈ found, ∃ width value, run.Fits width value) :
    assertionsHold? lo hi ((found.map (·.predicate half)).map fun predicate =>
        line level (assertion predicate)) =
      some ((found.map (·.predicate half)).all (·.accepts lo hi)) := by
  induction found with
  | nil => rfl
  | cons run found ih =>
    obtain ⟨⟨width, value, fits⟩, later⟩ := List.forall_mem_cons.mp fit
    obtain ⟨written, read, agree⟩ := exists_read?_of_fits fits half
    simp only [List.map_cons, List.all_cons, assertionsHold?, Assertion.read?_line, read,
      ih later, ← agree lo hi]
    rfl

theorem HalfPattern.assertionsHold?_eq (pattern : HalfPattern) (level : Nat) (half : Half)
    (lo hi : HalfWord) :
    assertionsHold? lo hi ((pattern.predicates half).map fun predicate =>
        line level (assertion predicate)) =
      some (pattern.accepts (half.select lo hi)) := by
  have agree : (pattern.predicates half).all (·.accepts lo hi) =
      pattern.accepts (half.select lo hi) := by
    rw [Bool.eq_iff_iff, List.all_eq_true, pattern.accepts_iff_predicates]
  rw [← agree]
  exact assertionsHold?_of_fits level half lo hi _ pattern.exists_fits

/-- The assertions that a pattern is written as, at any level of indentation, can all be read, and
they hold together for exactly the encodings that the pattern accepts. -/
theorem assertionsHold?_predicates (pattern : BitPattern) (level : Nat) (lo hi : HalfWord) :
    assertionsHold? lo hi (pattern.predicates.map fun predicate =>
        line level (assertion predicate)) =
      some (pattern.accepts lo hi) := by
  have low := HalfPattern.assertionsHold?_eq pattern.lo level .lo lo hi
  rw [BitPattern.predicates, List.map_append, assertionsHold?_append lo hi _ _ _ low,
    BitPattern.accepts]
  cases pattern.hi with
  | none => rfl
  | some high =>
    rw [HalfPattern.assertionsHold?_eq high level .hi lo hi]
    rfl

end DecoderTables.Header
