/-!
Lines of a text. A line ends with LF or with CR LF; text after the last LF is a line of its own
and keeps its CR.
-/

namespace DecoderTables.Text

/-- The line that a line feed ended, less its carriage return. -/
def dropReturn (line : List Char) : List Char :=
  if line.getLast? = some '\r' then line.dropLast else line

def lines (text : List Char) : List (List Char) :=
  let pieces := text.splitOn '\n'
  pieces.dropLast.map dropReturn ++ (pieces.getLast?.toList.filter (!·.isEmpty))

def endsWithLineFeed (text : List Char) : Bool :=
  text.getLast? == some '\n'

/-- What stands before the first character with the property, and what stands after it. -/
def cutAt (stop : Char → Bool) (text : List Char) : List Char × List Char :=
  (text.takeWhile (!stop ·), (text.dropWhile (!stop ·)).drop 1)

end DecoderTables.Text
