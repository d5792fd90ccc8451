import DecoderTables.Json.Value

/-!
Checks of some bits of a half-word, each given by a mask and the value under the mask.
-/

namespace DecoderTables
open Json

/-- Number of bits of a half-word. -/
def halfWidth : Nat := 16

abbrev HalfWord := BitVec 16

/-- The half-word that a predicate looks at. -/
inductive Half where
  | lo
  | hi
deriving DecidableEq

def Half.name : Half → String
  | .lo => "lo"
  | .hi => "hi"

/-- Either one bit, or the bits from `high` down to `low` against a binary literal with the most
significant digit first. -/
inductive Check where
  | bit (place : Nat) (value : Bool)
  | range (high low : Nat) (literal : String)
deriving DecidableEq

/-- The number written by binary digits, if there are only such. -/
def binaryDigits? (digits : List Char) : Option Nat :=
  digits.foldlM (fun value c =>
    if c = '0' then some (2 * value) else if c = '1' then some (2 * value + 1) else none) 0

/-- The value of a literal: at least one digit, perhaps after a plus, and less than 33 bits. -/
def literalValue? (literal : String) : Option Nat :=
  let digits := match literal.toList with
    | '+' :: digits => digits
    | digits => digits
  if digits.isEmpty then none
  else (binaryDigits? digits).filter (· < 0x100000000)

def binaryDigit (value : Bool) : Char :=
  if value then '1' else '0'

namespace Check

/-- The bits that are looked at. -/
def mask : Check → HalfWord
  | .bit place _ => BitVec.ofNat 16 (1 <<< place)
  | .range high low _ => BitVec.ofNat 16 ((1 <<< (high - low + 1) - 1) <<< low)

/-- The bits that must be set. A literal that is no number asks for zero. -/
def value : Check → HalfWord
  | .bit place value => BitVec.ofNat 16 (value.toNat <<< place)
  | .range _ low literal => BitVec.ofNat 16 ((literalValue? literal).getD 0 <<< low)

/-- Whether the whole half-word is looked at. -/
def isFull : Check → Bool
  | .bit .. => false
  | .range high low _ => high = halfWidth - 1 && low = 0

end Check

structure Predicate where
  half : Half
  check : Check
deriving DecidableEq

namespace Predicate

def accepts (predicate : Predicate) (lo hi : HalfWord) : Bool :=
  let raw := match predicate.half with
    | .lo => lo
    | .hi => hi
  raw &&& predicate.check.mask = predicate.check.value

def text (predicate : Predicate) : String :=
  match predicate.check with
  | .bit place value =>
      predicate.half.name ++ "[" ++ toString place ++ "] == 0b" ++ (binaryDigit value).toString
  | .range high low literal =>
      predicate.half.name ++ "[" ++ toString high ++ ":" ++ toString low ++ "] == 0b" ++ literal

def toJson (predicate : Predicate) : Value :=
  .object (("half", .string predicate.half.name) ::
    match predicate.check with
    | .bit place value => [("kind", .string "bit"), ("bit", .natural place), ("value", .bool value)]
    | .range high low literal =>
        [("kind", .string "range"), ("high", .natural high), ("low", .natural low),
          ("literal", .string literal)])

end Predicate

end DecoderTables
