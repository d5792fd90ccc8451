import DecoderTables.Json.ReadError

/-!
Readers of JSON text. A reader answers with a value and the text that it left, or with the first
fault it meets from left to right. What it leaves is shorter than what it got, so a loop over
items ends.
-/

namespace DecoderTables.Json

/-- What is left of `text` after some of it was read. -/
structure Rest (text : List Char) where
  chars : List Char
  shorter : chars.length < text.length

/-- What is left of `text` after a part that may be empty. -/
structure Tail (text : List Char) where
  chars : List Char
  noLonger : chars.length ≤ text.length

abbrev Reader (α : Type) := (text : List Char) → Except ReadError (α × Rest text)

def Rest.ofCons (c : Char) (text : List Char) : Rest (c :: text) :=
  ⟨text, by simp⟩

def Tail.whole (text : List Char) : Tail text :=
  ⟨text, Nat.le_refl _⟩

def Rest.tail {text : List Char} (rest : Rest text) : Tail text :=
  ⟨rest.chars, Nat.le_of_lt rest.shorter⟩

def Rest.within {inner outer : List Char} (rest : Rest inner)
    (inside : inner.length ≤ outer.length) : Rest outer :=
  ⟨rest.chars, Nat.lt_of_lt_of_le rest.shorter inside⟩

def Rest.afterCons {text : List Char} (c : Char) (rest : Rest text) : Rest (c :: text) :=
  rest.within (by simp)

def Rest.trans {text : List Char} (first : Rest text) (second : Rest first.chars) : Rest text :=
  second.within (Nat.le_of_lt first.shorter)

def Rest.transTail {text : List Char} (first : Rest text) (second : Tail first.chars) :
    Rest text :=
  ⟨second.chars, Nat.lt_of_le_of_lt second.noLonger first.shorter⟩

def Tail.trans {text : List Char} (first : Tail text) (second : Tail first.chars) : Tail text :=
  ⟨second.chars, Nat.le_trans second.noLonger first.noLonger⟩

def Tail.ofCons {text : List Char} (c : Char) (rest : Tail text) : Rest (c :: text) :=
  ⟨rest.chars, Nat.lt_succ_of_le rest.noLonger⟩

/-- The white space between tokens. -/
def isSpace (c : Char) : Bool :=
  c == ' ' || c == '\n' || c == '\t' || c == '\r'

def skipSpace (text : List Char) : List Char :=
  text.dropWhile isSpace

theorem length_skipSpace_le (text : List Char) : (skipSpace text).length ≤ text.length :=
  (List.dropWhile_suffix isSpace).length_le

theorem length_le_of_skipSpace {text more : List Char} {c : Char}
    (found : skipSpace text = c :: more) : (c :: more).length ≤ text.length :=
  found ▸ length_skipSpace_le text

theorem length_lt_of_skipSpace {text more : List Char} {c : Char}
    (found : skipSpace text = c :: more) : more.length < text.length :=
  length_le_of_skipSpace found

/-- The reader after white space. -/
def token {α : Type} (read : Reader α) : Reader α := fun text => do
  let (a, rest) ← read (skipSpace text)
  return (a, rest.within (length_skipSpace_le text))

/-- The rest of a word whose first letter is known. -/
def word : (letters text : List Char) → Except ReadError (Tail text)
  | [], text => .ok (.whole text)
  | _ :: _, [] => .error (.endOfText .value)
  | letter :: letters, c :: text =>
      if c = letter then do
        let rest ← word letters text
        return ⟨rest.chars, Nat.le_succ_of_le rest.noLonger⟩
      else .error .expectedWord

/-- The two kinds of brackets, with the faults of what stands between them. -/
inductive Bracket where
  | square
  | curly
deriving DecidableEq

namespace Bracket

def close : Bracket → Char
  | .square => ']'
  | .curly => '\x7d'

def unfinished : Bracket → ReadError
  | .square => .endOfText .list
  | .curly => .endOfText .object

def unseparated : Bracket → ReadError
  | .square => .expectedCommaOrBracket
  | .curly => .expectedCommaOrBrace

end Bracket

/-- Either the text after the closing bracket, or the text where the next item starts. -/
inductive Next (text : List Char) where
  | closed (rest : Rest text)
  | item (tail : Tail text)

/-- A comma stands between two items, and none before the closing bracket. -/
def Bracket.next (bracket : Bracket) (first : Bool) (text : List Char) :
    Except ReadError (Next text) :=
  match found : skipSpace text with
  | [] => .error bracket.unfinished
  | c :: more =>
      have inside : more.length < text.length := length_lt_of_skipSpace found
      if c = bracket.close then .ok (.closed ⟨more, inside⟩)
      else if first then .ok (.item (.whole text))
      else if c = ',' then
        if (skipSpace more).head? = some bracket.close then .error .trailingComma
        else .ok (.item ⟨more, Nat.le_of_lt inside⟩)
      else .error bracket.unseparated

/-- Reads items up to the closing bracket; each item changes the state. -/
def foldItems {σ : Type} (bracket : Bracket) (item : σ → Reader σ) (first : Bool) (state : σ)
    (text : List Char) : Except ReadError (σ × Rest text) := do
  match ← bracket.next first text with
  | .closed rest => return (state, rest)
  | .item tail =>
      let (state, rest) ← item state tail.chars
      let (state, last) ← foldItems bracket item false state rest.chars
      return (state, (rest.trans last).within tail.noLonger)
termination_by text.length
decreasing_by exact Nat.lt_of_lt_of_le rest.shorter tail.noLonger

/-- The items of a list in order. -/
def items {α : Type} (item : Reader α) : Reader (List α) := fun text => do
  let (found, rest) ← foldItems .square
    (fun found text => do
      let (a, rest) ← item text
      return (a :: found, rest)) true [] text
  return (found.reverse, rest)

end DecoderTables.Json
