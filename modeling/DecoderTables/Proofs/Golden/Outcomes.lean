import DecoderTables.Proofs.Golden.Reading
import DecoderTables.Proofs.Golden.TokenStarts
import Mathlib.Data.List.Forall2
import Mathlib.Data.List.Induction

/-!
What a golden test file gives, line by line. Each line with more than a comment is a test or a bad
line, told by the starts of its tokens; all others give nothing. Reading the file with one record
for all tests gives the same, so nothing of a line is left for the next one.
-/

namespace DecoderTables.Golden
open Text

/-- A test that says what its line says. -/
structure TestOf (prefixes : List String) (line : List Char) (number : Nat) (test : Test) :
    Prop where
  line_eq : test.line = number
  comment_eq : test.comment = String.ofList (trim (cutAt (· == '#') line).2)
  input_ne_nil : test.input ≠ []
  tokens : ∀ token ∈ test.input, IsToken token.toList
  announced : Announced prefixes test.expected.toList
  trimmed : trim test.expected.toList = test.expected.toList
  /-- The expected result starts at the first start of a token where it can. -/
  starts : ∃ before, body line = before ++ test.expected.toList ∧
    TokenStart before test.expected.toList ∧
    ∀ earlier rest, body line = earlier ++ rest → TokenStart earlier rest →
      Announced prefixes rest → before.length ≤ earlier.length
  joined : squeeze (" ".intercalate (test.input ++ [test.expected])).toList =
    squeeze (cutAt (· == '#') line).1

/-- What is to be said of a line with more than a comment. -/
structure Judged (file : String) (prefixes : List String) (line : List Char) (number : Nat)
    (outcome : Except String Test) : Prop where
  noInput_iff : outcome = .error ("error: no input, " ++ file ++ ":" ++ toString number) ↔
    Announced prefixes (body line)
  noExpectation_iff :
    outcome = .error ("error: no expected result, " ++ file ++ ":" ++ toString number) ↔
      ∀ before after, body line = before ++ after → TokenStart before after →
        ¬Announced prefixes after
  otherwise : ¬Announced prefixes (body line) →
    (∃ before after, body line = before ++ after ∧ TokenStart before after ∧
      Announced prefixes after) →
    ∃ test, outcome = .ok test ∧ TestOf prefixes line number test

/-! One line. -/

theorem tokenStart_nil {text : List Char} (filled : text ≠ [])
    (plain : ∀ c ∈ text.head?, isBlank c = false) : TokenStart [] text := by
  obtain ⟨c, rest, rfl⟩ := List.exists_cons_of_ne_nil filled
  exact ⟨⟨c, rfl, plain c rfl⟩, fun _ last => by cases last⟩

section Line

variable {prefixes : List String} {text before : List Char} {tokens : List String}
  {expected : List Char}

theorem Splits.tokens_eq_nil_iff (splits : Splits prefixes text before tokens expected)
    (filled : text ≠ []) (plain : ∀ c ∈ text.head?, isBlank c = false) :
    tokens = [] ↔ Announced prefixes text := by
  have words_eq := splits.words_eq
  apply Iff.intro
  · rintro rfl
    cases before with
    | nil =>
      have whole : text = expected := splits.text_eq
      exact whole ▸ (splits.starts (whole ▸ filled)).2
    | cons c before =>
      have first := plain c (by rw [splits.text_eq]; rfl)
      exact absurd words_eq (words_cons_ne_nil first before)
  · intro announced
    have none := splits.first [] text rfl (tokenStart_nil filled plain) announced
    rw [List.length_nil, Nat.le_zero, List.length_eq_zero_iff] at none
    rw [none, words_nil] at words_eq
    exact List.map_eq_nil_iff.mp words_eq.symm

theorem Splits.expected_eq_nil_iff (splits : Splits prefixes text before tokens expected) :
    expected = [] ↔ ∀ earlier rest, text = earlier ++ rest → TokenStart earlier rest →
      ¬Announced prefixes rest := by
  apply Iff.intro
  · rintro rfl earlier rest split start announced
    have bound := splits.first earlier rest split start announced
    have whole := congrArg List.length (split.symm.trans splits.text_eq)
    have more := List.length_pos_iff.mpr start.ne_nil
    simp only [List.length_append, List.length_nil] at whole
    omega
  · intro none
    by_contra filled
    obtain ⟨start, announced⟩ := splits.starts filled
    exact none before expected splits.text_eq start announced

/-- White space ends the words in front of the start of a token. -/
theorem TokenStart.words_append {before after : List Char} (start : TokenStart before after) :
    words (before ++ after) = words before ++ words after := by
  cases before using List.reverseRecOn with
  | nil => rfl
  | append_singleton before c =>
    have blank : isBlank c = true := start.behind c (by simp)
    have none : words (before ++ [c]) = words before := by
      rw [words_append_blank blank, words_nil, List.append_nil]
    rw [none, List.append_assoc, List.singleton_append, words_append_blank blank]

theorem Splits.testOf {line : List Char} {number : Nat}
    (splits : Splits prefixes (body line) before tokens expected) (some_token : tokens ≠ [])
    (filled : expected ≠ []) :
    TestOf prefixes line number
      ⟨number, String.ofList (trim (cutAt (· == '#') line).2), tokens, String.ofList expected⟩ := by
  obtain ⟨start, announced⟩ := splits.starts filled
  have whole := splits.text_eq
  have each : ∀ token ∈ tokens, IsToken token.toList := by
    intro token member
    have listed : token.toList ∈ words before := by
      rw [splits.words_eq]
      exact List.mem_map_of_mem member
    exact isToken_of_mem_words listed
  have trimmed : trim expected = expected := by
    apply trim_eq_self
    · intro c first
      obtain ⟨d, other, plain⟩ := start.begins
      obtain rfl := Option.mem_unique first other
      exact plain
    · intro c last
      have ends : c ∈ (body line).getLast? := by
        rw [whole, List.getLast?_append, Option.mem_def.mp last]
        rfl
      exact plain_of_mem_getLast?_trim ends
  refine ⟨rfl, rfl, some_token, each, ?_, ?_, ⟨before, ?_, ?_, splits.first⟩, ?_⟩
  · rwa [String.toList_ofList]
  · rw [String.toList_ofList, trimmed]
  · rw [whole, String.toList_ofList]
  · rwa [String.toList_ofList]
  · have alone : (tokens.map String.toList).flatMap words = tokens.map String.toList := by
      rw [List.flatMap_map, List.map_eq_flatMap]
      exact List.flatMap_congr fun token member => (each token member).words_eq
    have space : " ".toList = [' '] := rfl
    rw [String.toList_intercalate, space, squeeze, words_intercalate, List.map_append,
      List.flatMap_append, alone, List.map_singleton, List.flatMap_singleton,
      String.toList_ofList, ← splits.words_eq, ← start.words_append, ← whole, body, words_trim]
    rfl

end Line

/-- The two messages differ for every file and every line. -/
theorem message_noInput_ne (file : String) (number : Nat) :
    BadLine.message file ⟨number, .noInput⟩ ≠ BadLine.message file ⟨number, .noExpectation⟩ := by
  intro same
  rw [BadLine.message, BadLine.message, String.append_left_inj, String.append_left_inj,
    String.append_left_inj, String.append_left_inj, String.append_right_inj] at same
  have texts : Fault.noInput.text = Fault.noExpectation.text := same
  exact absurd texts (by decide)

/-- What a line with more than a comment gives, told by its tokens and its expected result. -/
def outcomeOf (number : Nat) (tokens : List String) (expected : List Char) (test : Test) :
    Except BadLine Test :=
  if tokens = [] then .error ⟨number, .noInput⟩
  else if expected = [] then .error ⟨number, .noExpectation⟩
  else .ok test

section Messages

variable (file : String) (number : Nat) {tokens : List String} {expected : List Char} (test : Test)

theorem outcomeOf_eq_noInput_iff :
    (outcomeOf number tokens expected test).mapError (BadLine.message file) =
      .error (BadLine.message file ⟨number, .noInput⟩) ↔ tokens = [] := by
  unfold outcomeOf
  split
  · next none => exact iff_of_true rfl none
  · next some_input =>
    refine iff_of_false ?_ some_input
    split
    · exact fun same => message_noInput_ne file number (Except.error.inj same).symm
    · intro same
      cases same

theorem outcomeOf_eq_noExpectation_iff (one : tokens = [] → expected ≠ []) :
    (outcomeOf number tokens expected test).mapError (BadLine.message file) =
      .error (BadLine.message file ⟨number, .noExpectation⟩) ↔ expected = [] := by
  unfold outcomeOf
  split
  · next none =>
    exact iff_of_false (fun same => message_noInput_ne file number (Except.error.inj same))
      (one none)
  · split
    · next empty => exact iff_of_true rfl empty
    · next some_expected =>
      refine iff_of_false ?_ some_expected
      intro same
      cases same

end Messages

theorem exists_judged (file : String) (prefixes : List String) (line : List Char) (number : Nat)
    (filled : hasBody line = true) :
    ∃ outcome, parseLine prefixes line number = some outcome ∧
      Judged file prefixes line number (outcome.mapError (BadLine.message file)) := by
  have plain : ∀ c ∈ (body line).head?, isBlank c = false := fun c => plain_of_mem_head?_trim
  obtain ⟨before, splits⟩ := exists_splits prefixes (body line) plain
  rcases split : splitInput prefixes (body line) with ⟨tokens, expected⟩
  rw [split] at splits
  have some_body := (hasBody_eq_true_iff line).mp filled
  have input_iff := splits.tokens_eq_nil_iff some_body plain
  have expected_iff := splits.expected_eq_nil_iff
  -- a line that announces its expected result at its start has one
  have one : tokens = [] → expected ≠ [] := by
    intro none empty
    exact expected_iff.mp empty [] (body line) rfl (tokenStart_nil some_body plain)
      (input_iff.mp none)
  refine ⟨outcomeOf number tokens expected _, parseLine_of_splitInput number filled split,
    ?_, ?_, ?_⟩
  · rw [← input_iff]
    exact outcomeOf_eq_noInput_iff file number _
  · rw [← expected_iff]
    exact outcomeOf_eq_noExpectation_iff file number _ one
  · intro quiet announces
    have some_input : tokens ≠ [] := mt input_iff.mp quiet
    have some_expected : expected ≠ [] := by
      intro empty
      obtain ⟨earlier, rest, same, start, announced⟩ := announces
      exact expected_iff.mp empty earlier rest same start announced
    rw [outcomeOf, if_neg some_input, if_neg some_expected]
    exact ⟨_, rfl, splits.testOf some_input some_expected⟩

/-- A list of partial results against the items that have one. -/
theorem forall₂_filter_filterMap {α β : Type} {related : α → β → Prop} {keeps : α → Bool}
    {result? : α → Option β} (items : List α)
    (none : ∀ item, keeps item = false → result? item = none)
    (some : ∀ item, keeps item = true →
      ∃ result, result? item = some result ∧ related item result) :
    List.Forall₂ related (items.filter keeps) (items.filterMap result?) := by
  induction items with
  | nil => exact .nil
  | cons item items ih =>
    cases kept : keeps item with
    | false =>
      rwa [List.filter_cons_of_neg (by simp [kept]), List.filterMap_cons_none (none item kept)]
    | true =>
      obtain ⟨result, given, holds⟩ := some item kept
      rw [List.filter_cons_of_pos kept, List.filterMap_cons_some given]
      exact .cons holds ih

/-- Each line with more than a comment is judged once, in the order of the lines. -/
theorem forall₂_judged_parse (file : String) (prefixes : List String) (text : String) :
    List.Forall₂ (fun numbered => Judged file prefixes numbered.1 numbered.2)
      (((lines text.toList).zipIdx 1).filter (hasBody ·.1))
      ((parse prefixes text).map (·.mapError (BadLine.message file))) := by
  rw [parse, List.map_filterMap]
  apply forall₂_filter_filterMap
  · rintro ⟨line, number⟩ empty
    dsimp only
    rw [parseLine_eq_none prefixes line number empty]
    rfl
  · rintro ⟨line, number⟩ filled
    obtain ⟨outcome, given, judged⟩ := exists_judged file prefixes line number filled
    dsimp only
    rw [given]
    exact ⟨_, rfl, judged⟩

/-- Reading a file up to its end gives one outcome for each line with more than a comment, in the
order of the lines, whatever was in the record. -/
theorem outcomes_judged (file : String) (prefixes : List String) (text : String) (record : Test) :
    (Reader.ofText file prefixes text).outcomes record =
        (parse prefixes text).map (·.mapError (BadLine.message file)) ∧
      List.Forall₂ (fun numbered => Judged file prefixes numbered.1 numbered.2)
        (((lines text.toList).zipIdx 1).filter (hasBody ·.1))
        ((Reader.ofText file prefixes text).outcomes record) := by
  have same : (Reader.ofText file prefixes text).outcomes record = _ :=
    Reader.outcomes_eq_parse file record text
  exact ⟨same, same ▸ forall₂_judged_parse file prefixes text⟩

end DecoderTables.Golden
