import DecoderTables.Golden.Basic

/-!
Reading the tests of a file one by one. Every call fills the record that the calls before it have
filled. A call ends at a test, at a bad line or at the end of the file, and the next one goes on
behind that line.
-/

namespace DecoderTables.Golden

/-- Reads the tokens of a text into a record, and the expected result when it starts. -/
def Test.fill (prefixes : List String) (test : Test) (text : List Char) : Test :=
  match text with
  | [] => test
  | c :: rest =>
      if startsExpectation prefixes (c :: rest) then
        { test with expected := String.ofList (c :: rest) }
      else
        let token := String.ofList (c :: rest.takeWhile (!Text.isBlank ·))
        fill prefixes { test with input := test.input ++ [token] }
          (Text.trimStart ((rest.dropWhile (!Text.isBlank ·)).drop 1))
termination_by text.length
decreasing_by exact length_behindToken_lt c rest

structure Reader where
  file : String
  prefixes : List String
  /-- The lines that were not read. -/
  lines : List (List Char)
  /-- The number of lines that were read. -/
  line : Nat

namespace Reader

def ofText (file : String) (prefixes : List String) (text : String) : Reader :=
  ⟨file, prefixes, Text.lines text.toList, 0⟩

/-- The message on the last line that was read. -/
def message (reader : Reader) (fault : Fault) : String :=
  BadLine.message reader.file ⟨reader.line, fault⟩

/-- Reads up to a line with more than a comment. The record has no input and expects nothing. -/
def nextIn (file : String) (prefixes : List String) (test : Test) (line : Nat) :
    List (List Char) → Except String Bool × Reader × Test
  | [] => (.ok false, ⟨file, prefixes, [], line⟩, test)
  | text :: lines =>
      let (before, comment) := Text.cutAt (· == '#') text
      let body := Text.trim before
      if body.isEmpty then nextIn file prefixes test (line + 1) lines
      else
        let reader : Reader := ⟨file, prefixes, lines, line + 1⟩
        let test := Test.fill prefixes
          { test with line := line + 1, comment := String.ofList (Text.trim comment) } body
        if test.input.isEmpty then (.error (reader.message .noInput), reader, test)
        else if test.expected.isEmpty then (.error (reader.message .noExpectation), reader, test)
        else (.ok true, reader, test)

/-- One call: whether there was a test, or what is wrong with a line. -/
def next (reader : Reader) (test : Test) : Except String Bool × Reader × Test :=
  nextIn reader.file reader.prefixes { test with input := [], expected := "" } reader.line
    reader.lines

theorem length_nextIn_lt (file : String) (prefixes : List String) (test : Test) (line : Nat)
    (lines : List (List Char)) (more : (nextIn file prefixes test line lines).1 ≠ .ok false) :
    (nextIn file prefixes test line lines).2.1.lines.length < lines.length := by
  induction lines generalizing line with
  | nil => exact absurd rfl more
  | cons text lines ih =>
    unfold nextIn at more ⊢
    dsimp only at more ⊢
    split at more
    · next skipped =>
      rw [if_pos skipped]
      exact Nat.lt_succ_of_lt (ih (line + 1) more)
    · next kept =>
      rw [if_neg kept]
      split
      · exact Nat.lt_succ_self _
      · split
        · exact Nat.lt_succ_self _
        · exact Nat.lt_succ_self _

/-- A call that does not find the end leaves fewer lines. -/
theorem length_lines_lt {reader later : Reader} {test filled : Test} {result : Except String Bool}
    (called : reader.next test = (result, later, filled)) (more : result ≠ .ok false) :
    later.lines.length < reader.lines.length := by
  have shorter := length_nextIn_lt reader.file reader.prefixes
    { test with input := [], expected := "" } reader.line reader.lines
  change (reader.next test).1 ≠ _ → (reader.next test).2.1.lines.length < _ at shorter
  rw [called] at shorter
  exact shorter more

/-- What the calls give up to the end of the file. A bad line does not end them. -/
def outcomes (reader : Reader) (test : Test) : List (Except String Test) :=
  match _ : reader.next test with
  | (.ok false, _, _) => []
  | (.ok true, later, filled) => .ok filled :: outcomes later filled
  | (.error message, later, filled) => .error message :: outcomes later filled
termination_by reader.lines.length
decreasing_by
  · exact length_lines_lt ‹_› (by simp)
  · exact length_lines_lt ‹_› (by simp)

end Reader

end DecoderTables.Golden
