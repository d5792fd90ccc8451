import DecoderTables.Golden.Difference
import DecoderTables.Golden.Reader

/-!
Running the tests of a file. They are read into one record, and each is run as soon as it is read.
Results and expectations are compared word by word; the first bad line ends the run.
-/

namespace DecoderTables.Golden

inductive Verdict where
  | passed
  | badLine (message : String)
  | noTests
  | failed (count : Int32)
deriving DecidableEq

/-- The message of a verdict other than success. -/
def Verdict.message? (file : String) : Verdict → Option String
  | .passed => none
  | .badLine message => some message
  | .noTests => some ("no tests in " ++ file)
  | .failed count => some ("failed " ++ toString count.toInt ++ " tests")

def squeezed (text : String) : String :=
  String.ofList (Text.squeeze text.toList)

def verdict (count failed : Int32) : Verdict :=
  if count = 0 then .noTests else if failed = 0 then .passed else .failed failed

/-- The report on a test, if its result is another than expected. -/
def report? (file : String) (test : Test) (result : String) : Option String :=
  let expected := squeezed test.expected
  let result := squeezed result
  if result = expected then none
  else
    some ("error: invalid output, " ++ file ++ ":" ++ toString test.line ++ "\n  input: " ++
      " ".intercalate test.input ++ "\n" ++
      difference file (.ofNat test.line) expected result ++ "\n")

/-- Runs the tests that a reader goes on to find, after `count` of them, of which `failed` failed.
Also the reports in order. The counters are machine words. -/
def runFrom {m : Type → Type} [Monad m] (file : String) (exec : Test → m String)
    (reader : Reader) (record : Test) (count failed : Int32) : m (Verdict × List String) :=
  match _ : reader.next record with
  | (.error message, _, _) => pure (.badLine message, [])
  | (.ok false, _, _) => pure (verdict count failed, [])
  | (.ok true, later, test) => do
      let result ← exec test
      match report? file test result with
      | none => runFrom file exec later test (count + 1) failed
      | some report => do
          let (verdict, reports) ← runFrom file exec later test (count + 1) (failed + 1)
          pure (verdict, report :: reports)
termination_by reader.lines.length
decreasing_by
  · exact Reader.length_lines_lt ‹_› (by simp)
  · exact Reader.length_lines_lt ‹_› (by simp)

def run {m : Type → Type} [Monad m] (file : String) (prefixes : List String)
    (exec : Test → m String) (text : String) : m (Verdict × List String) :=
  runFrom file exec (.ofText file prefixes text) {} 0 0

end DecoderTables.Golden
