import DecoderTables.Pattern.Run
import DecoderTables.Text.Quoted

/-!
Bit patterns. A pattern of a half-word has one character for each bit, the most significant
first: a digit for a fixed bit, the wildcard for any other.
-/

namespace DecoderTables
open Json

inductive PatternError where
  | length (found : Nat)
  | character (index : Nat) (found : Char)
deriving DecidableEq

def PatternError.message : PatternError → String
  | .length found => "expected 16 characters, found " ++ toString found
  | .character index found =>
      "unexpected character " ++ Text.quotedChar found ++ " at index " ++ toString index

def isPatternChar (c : Char) : Bool :=
  c = '0' || c = '1' || c = wildcard

/-- A wrong length comes before a wrong character, and the first wrong character counts. -/
def validate (text : String) : Except PatternError Unit :=
  let chars := text.toList
  if chars.length ≠ halfWidth then .error (.length chars.length)
  else
    match chars.zipIdx.find? (!isPatternChar ·.1) with
    | some (c, index) => .error (.character index c)
    | none => .ok ()

/-- The predicates of a pattern text in the order of its runs. -/
def analyze (text : String) (half : Half) : Except PatternError (List Predicate) := do
  validate text
  return (runs text).map (·.predicate half)

/-- A valid pattern text. -/
structure HalfPattern where
  text : String
  valid : validate text = .ok ()
deriving DecidableEq

namespace HalfPattern

def ofText (text : String) : Except PatternError HalfPattern :=
  match valid : validate text with
  | .ok () => .ok ⟨text, valid⟩
  | .error fault => .error fault

def predicates (pattern : HalfPattern) (half : Half) : List Predicate :=
  (runs pattern.text).map (·.predicate half)

/-- Whether a bit agrees with the character at its place. -/
def agrees (c : Char) (bit : Bool) : Bool :=
  if c = '0' then !bit else if c = '1' then bit else true

/-- Compares bit by bit; the first character stands for the highest bit. -/
def accepts (pattern : HalfPattern) (raw : HalfWord) : Bool :=
  pattern.text.toList.zipIdx.all fun (c, index) => agrees c (raw.getLsbD (halfWidth - 1 - index))

end HalfPattern

/-- The pattern of an encoding of one or two half-words. -/
structure BitPattern where
  lo : HalfPattern
  hi : Option HalfPattern
deriving DecidableEq

namespace BitPattern

/-- The low half is looked at first. A fault comes with the text that has it. -/
def ofTexts (lo : String) (hi : Option String) : Except (String × PatternError) BitPattern := do
  let low ← (HalfPattern.ofText lo).mapError (lo, ·)
  match hi with
  | none => return ⟨low, none⟩
  | some hi => do
      let high ← (HalfPattern.ofText hi).mapError (hi, ·)
      return ⟨low, some high⟩

/-- Whether the encoding has a second half-word. -/
def isWide (pattern : BitPattern) : Bool :=
  pattern.hi.isSome

/-- The predicates of the low half, then those of the high half. -/
def predicates (pattern : BitPattern) : List Predicate :=
  pattern.lo.predicates .lo ++
    match pattern.hi with
    | some hi => hi.predicates .hi
    | none => []

def accepts (pattern : BitPattern) (lo hi : HalfWord) : Bool :=
  pattern.lo.accepts lo &&
    match pattern.hi with
    | some high => high.accepts hi
    | none => true

def toJson (pattern : BitPattern) : Value :=
  .object (("lo", .string pattern.lo.text) ::
    match pattern.hi with
    | some hi => [("hi", .string hi.text)]
    | none => [])

end BitPattern

end DecoderTables
