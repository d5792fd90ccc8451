import DecoderTables.Text.Blank
import DecoderTables.Text.Line

/-!
Golden test files. A line holds the tokens of an input and then the expected result, which starts
at the first token where the rest of the line begins with one of the prefixes; a comment follows
a number sign.
-/

namespace DecoderTables.Golden

structure Test where
  line : Nat := 0
  comment : String := ""
  input : List String := []
  expected : String := ""
deriving DecidableEq

inductive Fault where
  | noInput
  | noExpectation
deriving DecidableEq

def Fault.text : Fault → String
  | .noInput => "no input"
  | .noExpectation => "no expected result"

/-- A line that is no test. -/
structure BadLine where
  line : Nat
  fault : Fault
deriving DecidableEq

def BadLine.message (file : String) (bad : BadLine) : String :=
  "error: " ++ bad.fault.text ++ ", " ++ file ++ ":" ++ toString bad.line

def startsExpectation (prefixes : List String) (text : List Char) : Bool :=
  prefixes.any fun start => start.toList.isPrefixOf text

/-- What stands behind a token and white space is shorter than the text that starts with it. -/
theorem length_behindToken_lt (c : Char) (rest : List Char) :
    (Text.trimStart ((rest.dropWhile (!Text.isBlank ·)).drop 1)).length < (c :: rest).length := by
  have trimmed := (List.dropWhile_suffix Text.isBlank
    (l := (rest.dropWhile (!Text.isBlank ·)).drop 1)).length_le
  have tail := (List.dropWhile_suffix (!Text.isBlank ·) (l := rest)).length_le
  simp only [List.length_drop] at trimmed
  simp only [Text.trimStart, List.length_cons]
  omega

/-- The tokens of the input, and the expected result. The text starts with no white space. -/
def splitInput (prefixes : List String) (text : List Char) : List String × List Char :=
  match text with
  | [] => ([], [])
  | c :: rest =>
      if startsExpectation prefixes (c :: rest) then ([], c :: rest)
      else
        let (more, expected) :=
          splitInput prefixes (Text.trimStart ((rest.dropWhile (!Text.isBlank ·)).drop 1))
        (String.ofList (c :: rest.takeWhile (!Text.isBlank ·)) :: more, expected)
termination_by text.length
decreasing_by exact length_behindToken_lt c rest

/-- What a line stands for, if it has more than a comment. -/
def parseLine (prefixes : List String) (text : List Char) (line : Nat) :
    Option (Except BadLine Test) :=
  let (before, comment) := Text.cutAt (· == '#') text
  let body := Text.trim before
  if body.isEmpty then none
  else
    let (input, expected) := splitInput prefixes body
    if input.isEmpty then some (.error ⟨line, .noInput⟩)
    else if expected.isEmpty then some (.error ⟨line, .noExpectation⟩)
    else
      some (.ok ⟨line, String.ofList (Text.trim comment), input, String.ofList expected⟩)

/-- The tests of a file and its bad lines in order. Lines are counted from one. -/
def parse (prefixes : List String) (text : String) : List (Except BadLine Test) :=
  ((Text.lines text.toList).zipIdx 1).filterMap fun (line, number) =>
    parseLine prefixes line number

def flag? : List Char → Option (String × Bool)
  | '+' :: name => some (String.ofList name, true)
  | '-' :: name => some (String.ofList name, false)
  | _ => none

/-- The words with a sign in front, with `true` for a plus. -/
def flags (text : String) : List (String × Bool) :=
  (Text.words text.toList).filterMap flag?

end DecoderTables.Golden
