import DecoderTables.Diff
import DecoderTables.Tables

/-!
Views for a terminal: the selector table, and the lines that a header loses and gains. Colours
are escape sequences around the text that they style, its padding included.
-/

namespace DecoderTables.Listing

inductive Color where
  | off
  | on
deriving DecidableEq

inductive Style where
  | opcode
  | decoder
  | splitter
  | invalid
  | flags
  | removed
  | added

def escape (code : String) : String :=
  "\x1b[" ++ code ++ "m"

/-- The sequences before and after a styled text. -/
def Style.codes : Style → String × String
  | .opcode => ("35", "39")
  | .decoder => ("33", "39")
  | .splitter => ("34", "39")
  | .invalid => ("2", "0")
  | .flags => ("32", "39")
  | .removed => ("31", "39")
  | .added => ("32", "39")

def styled (color : Color) (style : Style) (text : String) : String :=
  match color with
  | .off => text
  | .on => escape style.codes.1 ++ text ++ escape style.codes.2

/-- Spaces at the end up to a number of characters. -/
def padded (width : Nat) (text : String) : String :=
  String.ofList (text.toList.rightpad width ' ')

def kindStyle : EntryKind → Style
  | .decoder => .decoder
  | .splitter => .splitter
  | .invalid => .invalid

def entryLine (color : Color) (width : Nat) (entry : SelectorEntry) : String :=
  styled color .opcode ("0b" ++ entry.bin) ++ "  " ++ padded 8 entry.kind.name ++ "  " ++
    styled color (kindStyle entry.kind) (padded width entry.callback) ++
    if entry.flags.isEmpty then ""
    else "  " ++ styled color .flags (",".intercalate entry.flags)

/-- The length in bytes of the longest callback. -/
def callbackWidth (entries : List SelectorEntry) : Nat :=
  (entries.map (·.callback.utf8ByteSize)).foldl max 0

def summary (entries : List SelectorEntry) : String :=
  toString (EntryKind.decoder.countIn entries) ++ " decoders, " ++
    toString (EntryKind.splitter.countIn entries) ++ " splitters, " ++
    toString (EntryKind.invalid.countIn entries) ++ " invalid"

def lines (color : Color) (entries : List SelectorEntry) : List String :=
  entries.map (entryLine color (callbackWidth entries)) ++ [summary entries]

/-- A line for each selector value, and one that counts the kinds. -/
def text (color : Color) (tables : Tables) : String :=
  String.join ((lines color tables.opcodes).map (· ++ "\n"))

def removed (color : Color) (line : String) : String :=
  styled color .removed ("-" ++ line) ++ "\n"

def added (color : Color) (line : String) : String :=
  styled color .added ("+" ++ line) ++ "\n"

def changeText (color : Color) : Change → String
  | .left line => removed color line
  | .right line => added color line
  | .both _ => ""

/-- What changes in a file that is written again. -/
def diff (color : Color) (path current expected : String) : String :=
  "--- " ++ path ++ "\n+++ " ++ path ++ " (generated)\n" ++
    String.join ((Diff.ofTexts current expected).map (changeText color))

end DecoderTables.Listing
