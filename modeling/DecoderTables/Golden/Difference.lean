import DecoderTables.Diff
import DecoderTables.Text.Blank

/-!
A numbered display of the lines in which two texts differ. Tabs and spaces at the end of a line
are shown by marks.
-/

namespace DecoderTables.Golden

def visibleTab (c : Char) : Char :=
  if c = '\t' then '→' else c

def visibleBlank (c : Char) : Char :=
  if c = ' ' then '•' else visibleTab c

def visible (line : String) : String :=
  let text := line.toList
  let body := Text.trimEnd text
  String.ofList (body.map visibleTab ++ (text.drop body.length).map visibleBlank)

def numbered (number : UInt64) (mark line : String) : String :=
  String.ofList ((toString number.toNat).toList.leftpad 5 ' ') ++ " " ++ mark ++ " " ++
    visible line ++ "↴"

/-- Numbers the lines: `number` is that of the next expected line, `added` that of the next line
which only the result has. The counters are machine words, so zero follows the greatest number. -/
def changeLines (number added : UInt64) : List Change → List String
  | [] => []
  | .left line :: changes =>
      numbered number "-" line :: changeLines (number + 1) added changes
  | .both line :: changes =>
      numbered number "|" line :: changeLines (number + 1) (number + 1) changes
  | .right line :: changes =>
      numbered added "+" line :: changeLines number (added + 1) changes

/-- The display starts with the file, unless that has no name. -/
def difference (file : String) (line : UInt64) (expected result : String) : String :=
  let head := if file.isEmpty then [] else ["     --> " ++ file]
  let first := max line 1
  String.join ((head ++ changeLines first first (Diff.ofTexts expected result)).map (· ++ "\n"))

def compareFault : String := "invalid result"

/-- The report on two texts, if they differ. -/
def compare? (file : String) (line : UInt64) (expected result : String) : Option String :=
  if expected = result then none
  else some ("error: " ++ compareFault ++ "\n" ++ difference file line expected result ++ "\n")

end DecoderTables.Golden
