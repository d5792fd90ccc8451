import DecoderTables.Text.Printable

/-!
Text quoted for messages: some characters have a short escape, other hidden characters are
written by their code point.
-/

namespace DecoderTables.Text

/-- The lower case digits of a number in base sixteen. -/
def hex (n : Nat) : String :=
  String.ofList (Nat.toDigits 16 n)

def apostrophe : Char := Char.ofNat 0x27

/-- A character inside quotes of the kind `quote`. -/
def escaped (quote c : Char) : String :=
  if c = '\x00' then "\\0"
  else if c = '\t' then "\\t"
  else if c = '\r' then "\\r"
  else if c = '\n' then "\\n"
  else if c = '\\' || c = quote then "\\" ++ c.toString
  else if isPrintable c then c.toString
  else "\\u\x7b" ++ hex c.toNat ++ "\x7d"

def quotedChar (c : Char) : String :=
  String.ofList [apostrophe] ++ escaped apostrophe c ++ String.ofList [apostrophe]

def quoted (text : String) : String :=
  "\"" ++ String.join (text.toList.map (escaped '"')) ++ "\""

end DecoderTables.Text
