import DecoderTables.Pattern.Predicate
import DecoderTables.Text.Utf8

/-!
The fixed parts of a pattern text: the longest pieces without the wildcard. Places in the text
are counted in bytes.
-/

namespace DecoderTables

/-- Marks a bit that may have any value. -/
def wildcard : Char := 'x'

def isFixed (c : Char) : Bool :=
  c != wildcard

/-- A piece without wildcards that starts at the byte `start`. -/
structure Run where
  start : Nat
  literal : String
deriving DecidableEq

def Run.width (run : Run) : Nat :=
  run.literal.utf8ByteSize

/-- The place of the last byte. -/
def Run.stop (run : Run) : Nat :=
  run.start + run.width - 1

/-- The bit that the first character stands for. -/
def Run.high (run : Run) : Nat :=
  halfWidth - 1 - run.start

/-- The bit that the last character stands for. -/
def Run.low (run : Run) : Nat :=
  halfWidth - 1 - run.stop

def Run.predicate (run : Run) (half : Half) : Predicate :=
  { half
    check :=
      if run.width = 1 then .bit run.high (run.literal = "1")
      else .range run.high run.low run.literal }

def runsFrom (start : Nat) (text : List Char) : List Run :=
  match text with
  | [] => []
  | c :: text =>
      if isFixed c then
        let fixed := c :: text.takeWhile isFixed
        ⟨start, String.ofList fixed⟩ ::
          runsFrom (start + Text.utf8Length fixed) (text.dropWhile isFixed)
      else runsFrom (start + 1) text
termination_by text.length
decreasing_by
  · exact Nat.lt_succ_of_le (List.dropWhile_suffix isFixed).length_le
  · exact Nat.lt_succ_self _

/-- The runs of a text from left to right. -/
def runs (text : String) : List Run :=
  runsFrom 0 text.toList

end DecoderTables
