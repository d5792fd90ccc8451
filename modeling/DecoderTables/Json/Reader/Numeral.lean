import DecoderTables.Json.Reader.Basic

/-!
Numbers. A numeral is read first by its grammar and then given its value: an integer where one of
64 bits has that value, otherwise the significand times or divided by a power of ten, each
rounded to a floating-point number.
-/

namespace DecoderTables.Json
open Decimal

/-- The parts of a written number. The fraction and the exponent are empty where absent. -/
structure Numeral where
  negative : Bool
  whole : List Char
  fraction : List Char
  exponentNegative : Bool
  exponent : List Char

namespace Numeral

def takeDigits (text : List Char) : List Char × Tail text :=
  (text.takeWhile Char.isDigit, ⟨text.dropWhile Char.isDigit,
    (List.dropWhile_suffix Char.isDigit).length_le⟩)

/-- At least one digit; `cut` is the fault of a text that ends here. -/
def someDigits (cut : ReadError) : Reader (List Char)
  | [] => .error cut
  | c :: text =>
      if c.isDigit then
        let (digits, rest) := takeDigits text
        .ok (c :: digits, rest.ofCons c)
      else .error .invalidNumber

/-- The digits before the point. A zero in front stands alone. -/
def scanWhole (cut : ReadError) : Reader (List Char)
  | [] => .error cut
  | '0' :: text =>
      if (text.head?.map Char.isDigit).getD false then .error .invalidNumber
      else .ok (['0'], .ofCons '0' text)
  | c :: text => someDigits cut (c :: text)

def scanFraction (cut : ReadError) (text : List Char) :
    Except ReadError (List Char × Tail text) :=
  match text with
  | '.' :: text => do
      let (digits, rest) ← someDigits cut text
      return (digits, (rest.afterCons '.').tail)
  | text => .ok ([], .whole text)

/-- The sign of an exponent, `true` for a minus. -/
def scanSign (text : List Char) : Bool × Tail text :=
  match text with
  | '+' :: text => (false, (Rest.ofCons '+' text).tail)
  | '-' :: text => (true, (Rest.ofCons '-' text).tail)
  | text => (false, .whole text)

def scanExponent (cut : ReadError) (text : List Char) :
    Except ReadError (Bool × List Char × Tail text) :=
  match text with
  | c :: text =>
      if c = 'e' || c = 'E' then do
        let (negative, afterSign) := scanSign text
        let (digits, rest) ← someDigits cut afterSign.chars
        return (negative, digits, ⟨rest.chars, Nat.le_of_lt
          (Nat.lt_succ_of_lt (Nat.lt_of_lt_of_le rest.shorter afterSign.noLonger))⟩)
      else .ok (false, [], ⟨c :: text, Nat.le_refl _⟩)
  | [] => .ok (false, [], ⟨[], Nat.le_refl _⟩)

/-- A numeral after its sign. -/
def scanUnsigned (cut : ReadError) (negative : Bool) : Reader Numeral := fun text => do
  let (whole, afterWhole) ← scanWhole cut text
  let (fraction, afterFraction) ← scanFraction cut afterWhole.chars
  let (exponentNegative, exponent, rest) ← scanExponent cut afterFraction.chars
  return (⟨negative, whole, fraction, exponentNegative, exponent⟩,
    afterWhole.transTail (afterFraction.trans rest))

def scan (cut : ReadError) : Reader Numeral
  | '-' :: text => do
      let (numeral, rest) ← scanUnsigned cut true text
      return (numeral, rest.afterCons '-')
  | text => scanUnsigned cut false text

def digit (c : Char) : Nat :=
  c.toNat - 0x30

def largestSignificand : Nat := 0xFFFFFFFFFFFFFFFF

/-- Appends digits to a significand while it fits in 64 bits; also the digits left over. -/
def appendDigits : Nat → List Char → Nat × List Char
  | significand, [] => (significand, [])
  | significand, c :: digits =>
      let longer := 10 * significand + digit c
      if longer ≤ largestSignificand then appendDigits longer digits
      else (significand, c :: digits)

/-- Division by `10 ^ power`, in steps of at most `10 ^ 308`, until the quotient is zero. -/
def scaleDown (x : Binary64) (power : Nat) : Option Binary64 :=
  if power ≤ 308 then do
    x.quotient (← Binary64.nearest (Nat.pow 10 power) 1)
  else if x.isZero then some x
  else do
    scaleDown (← x.quotient (← Binary64.nearest (Nat.pow 10 308) 1)) (power - 308)
termination_by power

/-- Multiplication by `10 ^ power`. -/
def scaleUp (x : Binary64) (power : Nat) : Option Binary64 :=
  if x.isZero then some x
  else if power ≤ 308 then do
    x.product (← Binary64.nearest (Nat.pow 10 power) 1)
  else none

def scaled (significand : Nat) (power : Int) : Option Binary64 := do
  let x ← Binary64.nearest significand 1
  if 0 ≤ power then scaleUp x power.toNat else scaleDown x (-power).toNat

/-- Exponents have 31 bits. A larger one leaves zero, or is out of range. -/
def largestExponent : Nat := 0x7FFFFFFF

/-- The absolute value as a floating-point number. -/
def magnitude (numeral : Numeral) : Option Binary64 :=
  let (significand, dropped) := appendDigits 0 numeral.whole
  let (significand, ignored) := appendDigits significand numeral.fraction
  let shift : Int := dropped.length - (numeral.fraction.length - ignored.length : Nat)
  let exponent := numeral.exponent.foldl (fun n c => 10 * n + digit c) 0
  if exponent ≤ largestExponent then
    scaled significand (if numeral.exponentNegative then shift - exponent else shift + exponent)
  else if significand = 0 || numeral.exponentNegative then some .zero
  else none

/-- The integer that a numeral without fraction and exponent stands for. A negative zero is no
integer. -/
def integer? (numeral : Numeral) : Option Integer :=
  if numeral.fraction.isEmpty && numeral.exponent.isEmpty then
    let n := numeral.whole.foldl (fun n c => 10 * n + digit c) 0
    if numeral.negative then
      if lower : n ≤ 0x8000000000000000 then
        if n = 0 then none else some (.negOfNat n lower)
      else none
    else if upper : n < 0x10000000000000000 then some (.ofNat n upper) else none
  else none

def number? (numeral : Numeral) : Option Number :=
  match numeral.integer? with
  | some n => some (.integer n)
  | none => numeral.magnitude.map fun x =>
      .real (if numeral.negative then x.opposite else x)

end Numeral

/-- A number with its sign or its first digit in front. -/
def numberText : Reader Number := fun text => do
  let (numeral, rest) ← Numeral.scan (.endOfText .value) text
  match numeral.number? with
  | some n => return (n, rest)
  | none => .error .numberOutOfRange

end DecoderTables.Json
