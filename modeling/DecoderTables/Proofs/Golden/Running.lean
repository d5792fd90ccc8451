import DecoderTables.Golden.Run
import DecoderTables.Proofs.Golden.Outcomes
import Mathlib.Algebra.Group.Nat.Defs

/-!
A run of the tests of a file by a runner with a state. The runner is called once for each test up to
the first bad line, in the order of the file and each time in the state that it was left in. What
the run answers is told by the results of these calls alone. It counts tests in machine words, so
that a count is exact below the sign bit.
-/

namespace DecoderTables.Golden
open Text

section Runner

variable {σ : Type}

/-- Calls of a runner on the tests of a list, one for each of them and in their order, with the
results and the state after the last call. -/
inductive Calls (exec : Test → StateM σ String) : σ → List Test → List String → σ → Prop
  | nil (state : σ) : Calls exec state [] [] state
  | cons {before between after : σ} {test : Test} {tests : List Test} {result : String}
      {results : List String} (call : (exec test).run before = (result, between))
      (calls : Calls exec between tests results after) :
      Calls exec before (test :: tests) (result :: results) after

/-- The tests whose result is another than expected, with white space made equal. -/
def disagreements (tests : List Test) (results : List String) : List (Test × String) :=
  (tests.zip results).filter fun (test, result) =>
    !decide (squeezed result = squeezed test.expected)

/-- The reports on the tests that failed. -/
def reports (file : String) (tests : List Test) (results : List String) : List String :=
  (tests.zip results).filterMap fun (test, result) => report? file test result

/-- What a run says in the end, with no text if it succeeds, when `counted` is what it counts. The
outcomes of the lines of the file are the tests, up to the first bad line. -/
inductive Answer (counted : Nat → Int) (file : String) (tests : List Test)
    (results : List String) : List (Except String Test) → Option String → Prop
  | badLine (message : String) (later : List (Except String Test)) :
      Answer counted file tests results (tests.map .ok ++ .error message :: later) (some message)
  | noTests (none : counted tests.length = 0) :
      Answer counted file tests results (tests.map .ok) (some ("no tests in " ++ file))
  | failed (some_test : counted tests.length ≠ 0)
      (some_failed : counted (disagreements tests results).length ≠ 0) :
      Answer counted file tests results (tests.map .ok)
        (some ("failed " ++ toString (counted (disagreements tests results).length) ++ " tests"))
  | passed (some_test : counted tests.length ≠ 0)
      (all_agree : counted (disagreements tests results).length = 0) :
      Answer counted file tests results (tests.map .ok) none

/-- A number as a counter has it. -/
def wordCount (number : Nat) : Int :=
  (Int32.ofNat number).toInt

theorem wordCount_eq {number : Nat} (small : number < 2 ^ 31) : wordCount number = number :=
  Int32.toInt_ofNat_of_lt small

/-! One test. -/

theorem report?_eq_none_iff (file : String) (test : Test) (result : String) :
    report? file test result = none ↔ squeezed result = squeezed test.expected := by
  unfold report?
  dsimp only
  split
  · next same => exact iff_of_true rfl same
  · next differs => exact iff_of_false (fun given => by cases given) differs

theorem reports_cons (file : String) (test : Test) (tests : List Test) (result : String)
    (results : List String) :
    reports file (test :: tests) (result :: results) =
      (report? file test result).toList ++ reports file tests results := by
  rw [reports, List.zip_cons_cons, List.filterMap_cons]
  dsimp only
  cases report? file test result with
  | none => rfl
  | some report => rfl

/-- A test disagrees with its result exactly if there is a report on it. -/
theorem length_disagreements_cons (file : String) (test : Test) (tests : List Test)
    (result : String) (results : List String) :
    (disagreements (test :: tests) (result :: results)).length =
      (report? file test result).toList.length + (disagreements tests results).length := by
  have agree := report?_eq_none_iff file test result
  rw [disagreements, List.zip_cons_cons, List.filter_cons]
  cases given : report? file test result with
  | none => simp [agree.mp given, disagreements]
  | some report =>
    have differ : squeezed result ≠ squeezed test.expected := by
      intro same
      rw [agree.mpr same] at given
      cases given
    simp [differ, disagreements, Nat.add_comm]

theorem run_call_bind {exec : Test → StateM σ String} {test : Test} {before between : σ}
    {result : String} {α : Type} (call : (exec test).run before = (result, between))
    (next : String → StateM σ α) : (exec test >>= next).run before = (next result).run between := by
  rw [StateT.run_bind, call]
  rfl

theorem length_disagreements_le (tests : List Test) (results : List String) :
    (disagreements tests results).length ≤ tests.length :=
  Nat.le_trans (List.length_filter_le _ _) (List.length_zip ▸ Nat.min_le_left _ _)

section Calls

variable (exec : Test → StateM σ String) (file : String) {reader later : Reader}
  {record test : Test} (count failed : Int32) (before : σ)

theorem runFrom_of_error {message : String}
    (called : reader.next record = (.error message, later, test)) :
    (runFrom file exec reader record count failed).run before =
      ((.badLine message, []), before) := by
  rw [runFrom]
  split
  · next same =>
    cases called.symm.trans same
    rfl
  · next same => cases called.symm.trans same
  · next same => cases called.symm.trans same

theorem runFrom_of_end (called : reader.next record = (.ok false, later, test)) :
    (runFrom file exec reader record count failed).run before =
      ((verdict count failed, []), before) := by
  rw [runFrom]
  split
  · next same => cases called.symm.trans same
  · rfl
  · next same => cases called.symm.trans same

/-- One call of the runner, and then what is behind its test in the state that the call left. -/
theorem runFrom_of_test {between : σ} {result : String}
    (called : reader.next record = (.ok true, later, test))
    (call : (exec test).run before = (result, between)) :
    (runFrom file exec reader record count failed).run before =
      ((runFrom file exec later test (count + 1)
        (failed + .ofNat (report? file test result).toList.length)).run between).map
          (Prod.map id ((report? file test result).toList ++ ·)) id := by
  rw [runFrom]
  split
  · next same => cases called.symm.trans same
  · next same => cases called.symm.trans same
  · next same =>
    cases called.symm.trans same
    rw [run_call_bind call]
    cases report? file test result with
    | none =>
      have unchanged : failed + .ofNat (none : Option String).toList.length = failed :=
        Int32.add_zero failed
      rw [unchanged]
      rfl
    | some report => rfl

end Calls

/-! All tests. -/

/-- How a run ends that found some tests: at a bad line behind them, or with the file. -/
theorem exists_calls (exec : Test → StateM σ String) (file : String) (reader : Reader)
    (record : Test) (count failed : Int32) (before : σ) :
    ∃ tests results after, Calls exec before tests results after ∧
      ((∃ message later, reader.outcomes record = tests.map .ok ++ .error message :: later ∧
          (runFrom file exec reader record count failed).run before =
            ((.badLine message, reports file tests results), after)) ∨
        (reader.outcomes record = tests.map .ok ∧
          (runFrom file exec reader record count failed).run before =
            ((verdict (count + .ofNat tests.length)
              (failed + .ofNat (disagreements tests results).length),
                reports file tests results), after))) := by
  fun_induction Reader.outcomes reader record generalizing count failed before with
  | case1 reader record later test called =>
    refine ⟨[], [], before, .nil before, .inr ⟨rfl, ?_⟩⟩
    rw [runFrom_of_end exec file count failed before called]
    exact congrArg₂ (fun c f => ((verdict c f, []), before)) (Int32.add_zero count).symm
      (Int32.add_zero failed).symm
  | case2 reader record later test called ih =>
    rcases call : (exec test).run before with ⟨result, between⟩
    obtain ⟨tests, results, after, calls, ended⟩ :=
      ih (count + 1) (failed + .ofNat (report? file test result).toList.length) between
    refine ⟨test :: tests, result :: results, after, .cons call calls, ?_⟩
    rw [runFrom_of_test exec file count failed before called call, reports_cons]
    rcases ended with ⟨message, later, split, ran⟩ | ⟨whole, ran⟩
    · exact .inl ⟨message, later, by rw [split]; rfl, by rw [ran]; rfl⟩
    · refine .inr ⟨by rw [whole]; rfl, ?_⟩
      rw [ran, length_disagreements_cons file, List.length_cons, Int32.ofNat_add, Int32.ofNat_add,
        Int32.add_comm (.ofNat tests.length), Int32.add_assoc, Int32.add_assoc]
      rfl
  | case3 reader record message later test called ih =>
    refine ⟨[], [], before, .nil before, .inl ⟨message, _, rfl, ?_⟩⟩
    exact runFrom_of_error exec file count failed before called

theorem answer_verdict (counted : Nat → Int) (file : String) (tests : List Test)
    (results : List String) (total : counted tests.length = wordCount tests.length)
    (part : counted (disagreements tests results).length =
      wordCount (disagreements tests results).length) :
    Answer counted file tests results (tests.map .ok)
      ((verdict (.ofNat tests.length)
        (.ofNat (disagreements tests results).length)).message? file) := by
  have zero_iff : ∀ number, Int32.ofNat number = 0 ↔ wordCount number = 0 :=
    fun number => Int32.toInt_inj.symm
  unfold verdict
  split
  · next none => exact .noTests (total.trans ((zero_iff _).mp none))
  · next some_test =>
    have ran : counted tests.length ≠ 0 := fun none =>
      some_test ((zero_iff _).mpr (total.symm.trans none))
    split
    · next agree => exact .passed ran (part.trans ((zero_iff _).mp agree))
    · next differ =>
      have failures : (Int32.ofNat (disagreements tests results).length).toInt =
          counted (disagreements tests results).length := part.symm
      rw [Verdict.message?, failures]
      exact .failed ran fun none => differ ((zero_iff _).mpr (part.symm.trans none))

theorem Answer.length_le {counted : Nat → Int} {file : String} {tests : List Test}
    {results : List String} {outcomes : List (Except String Test)} {message : Option String}
    (answer : Answer counted file tests results outcomes message) :
    tests.length ≤ outcomes.length := by
  cases answer with
  | badLine message later => simp
  | _ => simp

/-- A run that counts exactly and succeeds has run a test, and no result was another than
expected. -/
theorem Answer.of_none {file : String} {tests : List Test} {results : List String}
    {outcomes : List (Except String Test)}
    (answer : Answer (fun number => number) file tests results outcomes none) :
    tests ≠ [] ∧ ∀ pair ∈ tests.zip results, squeezed pair.2 = squeezed pair.1.expected := by
  cases answer with
  | passed some_test all_agree =>
    refine ⟨fun none => some_test (by rw [none]; rfl), fun pair member => ?_⟩
    have none := List.length_eq_zero_iff.mp (Int.ofNat.inj all_agree)
    have agree := List.filter_eq_nil_iff.mp none pair member
    simpa using agree

/-- Notes the inputs that it is called with, and gives back the first token. -/
def noting (test : Test) : StateM (List (List String)) String :=
  modifyGet fun seen => ("= " ++ test.input.headD "", seen ++ [test.input])

/-- The test on the first line of `sampleFile`. -/
def agreeing : Test := ⟨1, "x", ["a", "b"], "=  a"⟩

/-- The test on the last line of `sampleFile`. -/
def disagreeing : Test := ⟨3, "", ["c"], "= d"⟩

def sampleFile : String :=
  "a b =  a # x\n# y\nc = d\n"

theorem run_noting :
    (run "f" ["="] noting sampleFile).run [] =
      ((.failed 1, (report? "f" disagreeing "= c").toList), [["a", "b"], ["c"]]) := by
  have three : Text.lines sampleFile.toList =
      ["a b =  a # x".toList, "# y".toList, "c = d".toList] := by decide +kernel
  have filled : hasBody "a b =  a # x".toList = true ∧ hasBody "# y".toList = false ∧
      hasBody "c = d".toList = true := by decide +kernel
  have split : splitInput ["="] (body "a b =  a # x".toList) = (["a", "b"], "=  a".toList) ∧
      splitInput ["="] (body "c = d".toList) = (["c"], "= d".toList) := by decide +kernel
  have first : (Reader.ofText "f" ["="] sampleFile).next {} =
      (.ok true, ⟨"f", ["="], ["# y".toList, "c = d".toList], 1⟩, agreeing) := by
    rw [Reader.ofText, three, Reader.next_of_splitInput _ _ _ _ filled.1 split.1]
    rfl
  have second : (Reader.mk "f" ["="] ["# y".toList, "c = d".toList] 1).next agreeing =
      (.ok true, ⟨"f", ["="], [], 3⟩, disagreeing) := by
    rw [Reader.next_of_comment _ _ _ _ filled.2.1,
      Reader.next_of_splitInput _ _ _ _ filled.2.2 split.2]
    rfl
  have agree : report? "f" agreeing "= a" = none := by decide +kernel
  have differ : (report? "f" disagreeing "= c").toList.length = 1 := by decide +kernel
  rw [run, runFrom_of_test noting "f" 0 0 [] first rfl,
    runFrom_of_test noting "f" _ _ _ second rfl, runFrom_of_end noting "f" _ _ _ rfl]
  change Prod.map (Prod.map id ((report? "f" agreeing "= a").toList ++ ·)) id
    ((verdict (0 + 1 + 1) (0 + .ofNat (report? "f" agreeing "= a").toList.length +
      .ofNat (report? "f" disagreeing "= c").toList.length),
        (report? "f" disagreeing "= c").toList ++ []), _) = _
  rw [agree, differ, List.append_nil]
  rfl

end Runner

end DecoderTables.Golden
