import DecoderTables.Json.ReadError

/-!
The text of a value: compact, or pretty with two spaces for each level. Strings escape the quote,
the backslash and the control characters.
-/

namespace DecoderTables.Json

def escapedChar (c : Char) : List Char :=
  match c with
  | '"' => ['\\', '"']
  | '\\' => ['\\', '\\']
  | '\x08' => ['\\', 'b']
  | '\x0c' => ['\\', 'f']
  | '\n' => ['\\', 'n']
  | '\r' => ['\\', 'r']
  | '\t' => ['\\', 't']
  | c =>
      if c.toNat < 0x20 then
        ['\\', 'u', '0', '0', Nat.digitChar (c.toNat / 16), Nat.digitChar (c.toNat % 16)]
      else [c]

def quote (text : String) : List Char :=
  '"' :: (text.toList.flatMap escapedChar ++ ['"'])

mutual

def Value.compact : Value → List Char
  | .null => ['n', 'u', 'l', 'l']
  | .bool true => ['t', 'r', 'u', 'e']
  | .bool false => ['f', 'a', 'l', 's', 'e']
  | .number n => n.text
  | .string s => quote s
  | .array [] => ['[', ']']
  | .array (item :: items) => '[' :: (item.compact ++ Value.compactItems items)
  | .object [] => ['\x7b', '\x7d']
  | .object ((name, v) :: members) =>
      '\x7b' :: (quote name ++ ':' :: (v.compact ++ Value.compactMembers members))

/-- The items after the first, and the closing bracket. -/
def Value.compactItems : List Value → List Char
  | [] => [']']
  | item :: items => ',' :: (item.compact ++ Value.compactItems items)

/-- The members after the first, and the closing bracket. -/
def Value.compactMembers : Members → List Char
  | [] => ['\x7d']
  | (name, v) :: members =>
      ',' :: (quote name ++ ':' :: (v.compact ++ Value.compactMembers members))

end

/-- A new line at a level. -/
def newLine (level : Nat) : List Char :=
  '\n' :: List.replicate (2 * level) ' '

mutual

def Value.pretty (level : Nat) : Value → List Char
  | .array [] => ['[', ']']
  | .array (item :: items) =>
      '[' :: (newLine (level + 1) ++ (item.pretty (level + 1) ++ Value.prettyItems level items))
  | .object [] => ['\x7b', '\x7d']
  | .object ((name, v) :: members) =>
      '\x7b' :: (newLine (level + 1) ++ (quote name ++ ':' :: ' ' ::
        (v.pretty (level + 1) ++ Value.prettyMembers level members)))
  | .null => ['n', 'u', 'l', 'l']
  | .bool true => ['t', 'r', 'u', 'e']
  | .bool false => ['f', 'a', 'l', 's', 'e']
  | .number n => n.text
  | .string s => quote s

def Value.prettyItems (level : Nat) : List Value → List Char
  | [] => newLine level ++ [']']
  | item :: items =>
      ',' :: (newLine (level + 1) ++ (item.pretty (level + 1) ++ Value.prettyItems level items))

def Value.prettyMembers (level : Nat) : Members → List Char
  | [] => newLine level ++ ['\x7d']
  | (name, v) :: members =>
      ',' :: (newLine (level + 1) ++ (quote name ++ ':' :: ' ' ::
        (v.pretty (level + 1) ++ Value.prettyMembers level members)))

end

def Value.compactText (v : Value) : String :=
  String.ofList v.compact

def Value.prettyText (v : Value) : String :=
  String.ofList (v.pretty 0)

def Members.text (members : Members) : String :=
  (Value.object members).compactText

end DecoderTables.Json
