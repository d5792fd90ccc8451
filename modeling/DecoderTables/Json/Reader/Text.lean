import DecoderTables.Json.Reader.Basic
import DecoderTables.Text.Utf8

/-!
Strings: the characters between two quotes, some of them escaped. A code point beyond four
hexadecimal digits is escaped as a pair of surrogates.
-/

namespace DecoderTables.Json

def hexDigit? (c : Char) : Option Nat :=
  if '0' ≤ c ∧ c ≤ '9' then some (c.toNat - 0x30)
  else if 'a' ≤ c ∧ c ≤ 'f' then some (c.toNat - 0x61 + 10)
  else if 'A' ≤ c ∧ c ≤ 'F' then some (c.toNat - 0x41 + 10)
  else none

def hexValue? (digits : List Char) : Option Nat :=
  digits.foldlM (fun value c => (hexDigit? c).map (16 * value + ·)) 0

/-- Four hexadecimal digits. A text of less than four bytes is cut off. -/
def hexUnit : Reader Nat
  | a :: b :: c :: d :: text =>
      match hexValue? [a, b, c, d] with
      | some n => .ok (n, ⟨text, by simp; omega⟩)
      | none => .error .invalidEscape
  | text => .error (if Text.utf8Length text < 4 then .endOfText .string else .invalidEscape)

/-- The second half of a pair, given the first. -/
def lowSurrogate (high : Nat) : Reader Char
  | [] => .error (.endOfText .string)
  | [c] => .error (if c = '\\' then .endOfText .string else .unfinishedPair)
  | c :: d :: text =>
      if c = '\\' && d = 'u' then do
        let (low, rest) ← hexUnit text
        if 0xDC00 ≤ low && low ≤ 0xDFFF then
          return (Char.ofNat (0x10000 + 0x400 * (high - 0xD800) + (low - 0xDC00)),
            (rest.afterCons d).afterCons c)
        else .error .loneSurrogate
      else .error .unfinishedPair

/-- The escape after the letter `u`. -/
def codeEscape : Reader Char := fun text => do
  let (unit, rest) ← hexUnit text
  if 0xDC00 ≤ unit && unit ≤ 0xDFFF then .error .loneSurrogate
  else if 0xD800 ≤ unit && unit ≤ 0xDBFF then do
    let (c, last) ← lowSurrogate unit rest.chars
    return (c, rest.trans last)
  else return (Char.ofNat unit, rest)

/-- The character that a letter stands for after a backslash. -/
def shortEscape? : Char → Option Char
  | '"' => some '"'
  | '\\' => some '\\'
  | '/' => some '/'
  | 'b' => some '\x08'
  | 'f' => some '\x0c'
  | 'n' => some '\n'
  | 'r' => some '\r'
  | 't' => some '\t'
  | _ => none

/-- What follows a backslash. -/
def escape : Reader Char
  | [] => .error (.endOfText .string)
  | c :: text =>
      match shortEscape? c with
      | some plain => .ok (plain, .ofCons c text)
      | none =>
          if c = 'u' then do
            let (plain, rest) ← codeEscape text
            return (plain, rest.afterCons c)
          else .error .invalidEscape

/-- The characters of a string after its opening quote. -/
def stringBody (text : List Char) : Except ReadError (List Char × Rest text) :=
  match text with
  | [] => .error (.endOfText .string)
  | c :: text =>
      if c = '"' then .ok ([], .ofCons c text)
      else if c = '\\' then do
        let (plain, rest) ← escape text
        let (body, last) ← stringBody rest.chars
        return (plain :: body, (rest.trans last).afterCons c)
      else if c.toNat < 0x20 then .error .controlCharacter
      else do
        let (body, rest) ← stringBody text
        return (c :: body, rest.afterCons c)
termination_by text.length
decreasing_by
  · exact Nat.lt_succ_of_lt rest.shorter
  · exact Nat.lt_succ_self _

/-- A string with its opening quote in front, as a text. -/
def quotedText (text : List Char) : Except ReadError (String × Rest text) := do
  let (body, rest) ← stringBody text
  return (String.ofList body, rest)

/-- An escape of a string whose value is not needed: the digits of a code are not paired. -/
def skipEscape (text : List Char) : Except ReadError (Rest text) :=
  match text with
  | [] => .error (.endOfText .string)
  | c :: text =>
      if (shortEscape? c).isSome then .ok (.ofCons c text)
      else if c = 'u' then do
        let (_, rest) ← hexUnit text
        return rest.afterCons c
      else .error .invalidEscape

/-- A string whose value is not needed, after its opening quote. -/
def skipString (text : List Char) : Except ReadError (Rest text) :=
  match text with
  | [] => .error (.endOfText .string)
  | c :: text =>
      if c = '"' then .ok (.ofCons c text)
      else if c = '\\' then do
        let rest ← skipEscape text
        let last ← skipString rest.chars
        return (rest.trans last).afterCons c
      else if c.toNat < 0x20 then .error .controlCharacter
      else do
        let rest ← skipString text
        return rest.afterCons c
termination_by text.length
decreasing_by
  · exact Nat.lt_succ_of_lt rest.shorter
  · exact Nat.lt_succ_self _

end DecoderTables.Json
