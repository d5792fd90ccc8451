import DecoderTables.Golden.Reader
import DecoderTables.Proofs.Text.Words

/-!
Reading a file test by test, with one record for all tests, gives what its lines give. A call
clears the record before it looks at a line, so that what is in it does not matter.
-/

namespace DecoderTables.Golden
open Text

/-- The text of a line before the comment, without the white space around it. -/
def body (line : List Char) : List Char :=
  trim (cutAt (· == '#') line).1

/-- The line has more than a comment. -/
def hasBody (line : List Char) : Bool :=
  (cutAt (· == '#') line).1.any (!isBlank ·)

theorem hasBody_eq_false_iff (line : List Char) : hasBody line = false ↔ body line = [] := by
  rw [body, trim_eq_nil_iff, hasBody, List.any_eq_false]
  simp only [Bool.not_eq_true', Bool.not_eq_false]
  rfl

theorem hasBody_eq_true_iff (line : List Char) : hasBody line = true ↔ body line ≠ [] := by
  rw [ne_eq, ← hasBody_eq_false_iff, Bool.not_eq_false]

theorem parseLine_eq_none (prefixes : List String) (line : List Char) (number : Nat)
    (empty : hasBody line = false) : parseLine prefixes line number = none := by
  rw [hasBody_eq_false_iff, body] at empty
  simp [parseLine, empty]

/-- A line gives what its tokens and its expected result allow. -/
theorem parseLine_of_splitInput {prefixes tokens : List String} {line expected : List Char}
    (number : Nat) (filled : hasBody line = true)
    (split : splitInput prefixes (body line) = (tokens, expected)) :
    parseLine prefixes line number = some (
      if tokens = [] then .error ⟨number, .noInput⟩
      else if expected = [] then .error ⟨number, .noExpectation⟩
      else .ok ⟨number, String.ofList (trim (cutAt (· == '#') line).2), tokens,
        String.ofList expected⟩) := by
  have some_body := (hasBody_eq_true_iff line).mp filled
  rw [body] at split some_body
  unfold parseLine
  simp only [List.isEmpty_iff, some_body, ↓reduceIte, split]
  split
  · rfl
  · split
    · rfl
    · rfl

/-- The record gets the tokens behind those that it has, and the expected result if there is one. -/
theorem fill_eq (prefixes : List String) (test : Test) (text : List Char) :
    test.fill prefixes text =
      { test with
        input := test.input ++ (splitInput prefixes text).1
        expected := if (splitInput prefixes text).2 = [] then test.expected
          else String.ofList (splitInput prefixes text).2 } := by
  fun_induction splitInput prefixes text generalizing test with
  | case1 =>
    rw [Test.fill]
    simp
  | case2 c rest announced =>
    rw [Test.fill, if_pos announced]
    simp
  | case3 c rest other more expected made ih =>
    rw [Test.fill, if_neg other, ih, made]
    simp

namespace Reader

variable (file : String) {prefixes : List String} {text : List Char} (line : Nat)
  (lines : List (List Char)) (test : Test)

/-- A line without more than a comment changes nothing. -/
theorem next_of_comment (empty : hasBody text = false) :
    next ⟨file, prefixes, text :: lines, line⟩ test =
      next ⟨file, prefixes, lines, line + 1⟩ test := by
  rw [hasBody_eq_false_iff, body] at empty
  change nextIn _ _ _ _ (text :: lines) = nextIn _ _ _ _ lines
  rw [nextIn]
  exact if_pos (List.isEmpty_iff.mpr empty)

/-- A line with more than a comment ends the call, and the record holds what was read of it. -/
theorem next_of_splitInput {tokens : List String} {expected : List Char}
    (filled : hasBody text = true)
    (split : splitInput prefixes (body text) = (tokens, expected)) :
    next ⟨file, prefixes, text :: lines, line⟩ test =
      (if tokens = [] then .error (BadLine.message file ⟨line + 1, .noInput⟩)
        else if expected = [] then .error (BadLine.message file ⟨line + 1, .noExpectation⟩)
        else .ok true,
      ⟨file, prefixes, lines, line + 1⟩,
      ⟨line + 1, String.ofList (trim (cutAt (· == '#') text).2), tokens,
        String.ofList expected⟩) := by
  have some_body := (hasBody_eq_true_iff text).mp filled
  have expects : (if expected = [] then "" else String.ofList expected) =
      String.ofList expected := by
    split
    · next empty => rw [empty]
    · rfl
  rw [body] at split some_body
  change nextIn _ _ _ _ (text :: lines) = _
  rw [nextIn]
  dsimp only
  rw [if_neg (mt List.isEmpty_iff.mp some_body), fill_eq, split]
  dsimp only
  rw [expects, List.nil_append]
  simp only [List.isEmpty_iff, String.isEmpty_iff, String.ofList_eq_empty_iff, message]
  split
  · rfl
  · split
    · rfl
    · rfl

section Calls

variable {reader later other : Reader} {test filled record : Test}

theorem outcomes_of_end (called : reader.next test = (.ok false, later, filled)) :
    reader.outcomes test = [] := by
  rw [outcomes]
  split
  · rfl
  · next same => cases called.symm.trans same
  · next same => cases called.symm.trans same

theorem outcomes_of_test (called : reader.next test = (.ok true, later, filled)) :
    reader.outcomes test = .ok filled :: later.outcomes filled := by
  rw [outcomes]
  split
  · next same => cases called.symm.trans same
  · next same =>
    cases called.symm.trans same
    rfl
  · next same => cases called.symm.trans same

theorem outcomes_of_error {text : String}
    (called : reader.next test = (.error text, later, filled)) :
    reader.outcomes test = .error text :: later.outcomes filled := by
  rw [outcomes]
  split
  · next same => cases called.symm.trans same
  · next same => cases called.symm.trans same
  · next same =>
    cases called.symm.trans same
    rfl

/-- The first call decides all that follow. -/
theorem outcomes_of_next_eq (same : reader.next test = other.next record) :
    reader.outcomes test = other.outcomes record := by
  rcases called : other.next record with ⟨result, later, filled⟩
  rw [called] at same
  cases result with
  | error text => rw [outcomes_of_error same, outcomes_of_error called]
  | ok more =>
    cases more with
    | false => rw [outcomes_of_end same, outcomes_of_end called]
    | true => rw [outcomes_of_test same, outcomes_of_test called]

end Calls

/-- The calls on the lines that are left. -/
theorem outcomes_eq_filterMap :
    outcomes ⟨file, prefixes, lines, line⟩ test =
      ((lines.zipIdx (line + 1)).filterMap fun (text, number) =>
        parseLine prefixes text number).map (·.mapError (BadLine.message file)) := by
  induction lines generalizing line test with
  | nil => exact outcomes_of_end rfl
  | cons text lines ih =>
    rw [List.zipIdx_cons, List.filterMap_cons]
    dsimp only
    cases kept : hasBody text with
    | false =>
      rw [parseLine_eq_none prefixes text (line + 1) kept,
        outcomes_of_next_eq (next_of_comment file line lines test kept), ih]
    | true =>
      rcases split : splitInput prefixes (body text) with ⟨tokens, expected⟩
      have called := next_of_splitInput file line lines test kept split
      rw [parseLine_of_splitInput (line + 1) kept split]
      dsimp only
      rw [List.map_cons, ← ih (line + 1)]
      by_cases no_input : tokens = []
      · rw [if_pos no_input] at called ⊢
        exact outcomes_of_error called
      · by_cases no_expected : expected = []
        · rw [if_neg no_input, if_pos no_expected] at called ⊢
          exact outcomes_of_error called
        · rw [if_neg no_input, if_neg no_expected] at called ⊢
          exact outcomes_of_test called

theorem outcomes_eq_parse (text : String) :
    (ofText file prefixes text).outcomes test =
      (parse prefixes text).map (·.mapError (BadLine.message file)) :=
  outcomes_eq_filterMap file 0 _ test

end Reader

end DecoderTables.Golden
