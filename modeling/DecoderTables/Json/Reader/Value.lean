import DecoderTables.Json.Reader.Numeral
import DecoderTables.Json.Reader.Text

/-!
Values, members of objects, and the shapes named in faults. `depth` counts the brackets that may
still be opened.
-/

namespace DecoderTables.Json

/-- Nested brackets that a text may open. -/
def depthLimit : Nat := 127

def colon (text : List Char) : Except ReadError (Rest text) :=
  match found : skipSpace text with
  | [] => .error (.endOfText .object)
  | c :: more =>
      if c = ':' then
        .ok ⟨more, length_lt_of_skipSpace found⟩
      else .error .expectedColon

/-- The name of a member. -/
def memberName : Reader String :=
  token fun
    | [] => .error (.endOfText .value)
    | c :: text =>
        if c = '"' then do
          let (name, rest) ← quotedText text
          return (name, rest.afterCons c)
        else .error .keyNotString

/-- A member: the name decides how the value is read. -/
def member {α : Type} (choose : String → Except ReadError (Reader α)) : Reader α :=
  fun text => do
    let (name, rest) ← memberName text
    let read ← choose name
    let afterColon ← colon rest.chars
    let (a, last) ← read afterColon.chars
    return (a, (rest.trans afterColon).trans last)

/-- A value whose first character is `c`. -/
def valueFrom (nested : Bracket → Reader Value) (c : Char) (text : List Char) :
    Except ReadError (Value × Rest (c :: text)) :=
  if c = '"' then do
    let (s, rest) ← quotedText text
    return (.string s, rest.afterCons c)
  else if c = '[' then do
    let (v, rest) ← nested .square text
    return (v, rest.afterCons c)
  else if c = '\x7b' then do
    let (v, rest) ← nested .curly text
    return (v, rest.afterCons c)
  else if c = 'n' then do
    let rest ← word ['u', 'l', 'l'] text
    return (.null, rest.ofCons c)
  else if c = 't' then do
    let rest ← word ['r', 'u', 'e'] text
    return (.bool true, rest.ofCons c)
  else if c = 'f' then do
    let rest ← word ['a', 'l', 's', 'e'] text
    return (.bool false, rest.ofCons c)
  else if c = '-' || c.isDigit then do
    let (n, rest) ← numberText (c :: text)
    return (.number n, rest)
  else .error .expectedValue

/-- The reader of one value between white space, given one for what follows a bracket. -/
def valueWith (nested : Bracket → Reader Value) : Reader Value :=
  token fun
    | [] => .error (.endOfText .value)
    | c :: text => valueFrom nested c text

/-- The members of an object; a repeated name keeps the first place and the last value. -/
def members (item : Reader Value) : Reader Members :=
  foldItems .curly
    (fun found => member fun name => .ok fun text => do
      let (v, rest) ← item text
      return (found.put name v, rest)) true []

/-- What follows an opening bracket. -/
def nested : (depth : Nat) → Bracket → Reader Value
  | 0, _ => fun _ => .error .tooDeep
  | depth + 1, .square => fun text => do
      let (found, rest) ← items (valueWith (nested depth)) text
      return (.array found, rest)
  | depth + 1, .curly => fun text => do
      let (found, rest) ← members (valueWith (nested depth)) text
      return (.object found, rest)

def value (depth : Nat) : Reader Value :=
  valueWith (nested depth)

/-- The fault of a text that holds a value of another shape. A list or an object is not read. -/
def mismatch (expected : String) (text : List Char) : ReadError :=
  let shape : Except ReadError Shape :=
    match text with
    | [] => .error (.endOfText .value)
    | c :: text =>
        if c = '[' then .ok .sequence
        else if c = '\x7b' then .ok .map
        else do
          let (v, _) ← valueFrom (fun _ _ => .error .expectedValue) c text
          match v with
          | .null => .ok .null
          | .bool b => .ok (.bool b)
          | .number n => .ok (.number n)
          | .string s => .ok (.string s)
          | _ => .error .expectedValue
  match shape with
  | .ok found => .wrongShape found expected
  | .error fault => fault

/-- A value that begins with `opening`; any other is a mismatch. -/
def opened {α : Type} (opening : Char) (expected : String) (body : Reader α) : Reader α :=
  token fun
    | [] => .error (.endOfText .value)
    | c :: text =>
        if c = opening then do
          let (a, rest) ← body text
          return (a, rest.afterCons c)
        else .error (mismatch expected (c :: text))

/-- One bracket deeper, or too deep. -/
def deeper {α : Type} (depth : Nat) (body : Nat → Reader α) : Reader α :=
  match depth with
  | 0 => fun _ => .error .tooDeep
  | depth + 1 => body depth

def string : Reader String :=
  opened '"' "a string" quotedText

def listOf {α : Type} (depth : Nat) (item : Nat → Reader α) : Reader (List α) :=
  opened '[' "a sequence" (deeper depth fun depth => items (item depth))

/-- The members of an object in a fold; a member's name and the state so far decide its reader. -/
def objectOf {σ : Type} (depth : Nat) (expected : String) (start : σ)
    (choose : Nat → σ → String → Except ReadError (Reader σ)) : Reader σ :=
  opened '\x7b' expected (deeper depth fun depth =>
    foldItems .curly (fun state => member (choose depth state)) true start)

/-- Reads a whole text; only white space may follow. -/
def readAll {α : Type} (read : Reader α) (text : List Char) : Except ReadError α := do
  let (a, rest) ← read text
  match skipSpace rest.chars with
  | [] => return a
  | _ => .error .trailingCharacters

def read (text : String) : Except ReadError Value :=
  readAll (value depthLimit) text.toList

end DecoderTables.Json
