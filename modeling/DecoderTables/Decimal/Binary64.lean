/-!
Binary floating-point numbers of 64 bits, kept as their bits. A finite number is its sign and
`significand * 2 ^ exponent`; products and quotients are rounded once, to the nearest number, a
tie to the even significand.
-/

namespace DecoderTables.Decimal

structure Binary64 where
  bits : UInt64
deriving DecidableEq

namespace Binary64

def zero : Binary64 := ⟨0⟩

def isNegative (x : Binary64) : Bool :=
  x.bits >>> 63 == 1

def opposite (x : Binary64) : Binary64 :=
  ⟨x.bits ^^^ 0x8000000000000000⟩

def biasedExponent (x : Binary64) : Nat :=
  ((x.bits >>> 52) &&& 0x7FF).toNat

def fraction (x : Binary64) : Nat :=
  (x.bits &&& 0xFFFFFFFFFFFFF).toNat

def significand (x : Binary64) : Nat :=
  if x.biasedExponent = 0 then x.fraction else 0x10000000000000 + x.fraction

def exponent (x : Binary64) : Int :=
  if x.biasedExponent = 0 then -1074 else x.biasedExponent - 1075

def isZero (x : Binary64) : Bool :=
  x.significand = 0

/-- Equality of numbers: the two zeros are equal. -/
def equals (x y : Binary64) : Bool :=
  x = y || (x.isZero && y.isZero)

/-- The absolute value as a numerator over `denominator`. -/
def numerator (x : Binary64) : Nat :=
  x.significand <<< x.exponent.toNat

def denominator (x : Binary64) : Nat :=
  1 <<< (-x.exponent).toNat

def roundHalfEven (num den : Nat) : Nat :=
  let quotient := num / den
  match compare (2 * (num % den)) den with
  | .lt => quotient
  | .gt => quotient + 1
  | .eq => quotient + quotient % 2

/-- The number nearest to `num / den`, unless that lies beyond the largest one. -/
def nearest (num den : Nat) : Option Binary64 :=
  if num = 0 then some zero
  else
    let scaled (power : Int) : Nat × Nat := (num <<< (-power).toNat, den <<< power.toNat)
    let estimate : Int := max (-1074) ((num.log2 : Int) - den.log2 - 53)
    let (top, bottom) := scaled estimate
    let power := if 0x20000000000000 ≤ top / bottom then estimate + 1 else estimate
    let (top, bottom) := scaled power
    let rounded := roundHalfEven top bottom
    let code :=
      if rounded < 0x10000000000000 then rounded
      else (power + 1075).toNat <<< 52 + (rounded - 0x10000000000000)
    if code < 0x7FF <<< 52 then some ⟨UInt64.ofNat code⟩ else none

/-- The product of two absolute values. -/
def product (x y : Binary64) : Option Binary64 :=
  nearest (x.numerator * y.numerator) (x.denominator * y.denominator)

/-- The quotient of two absolute values. -/
def quotient (x y : Binary64) : Option Binary64 :=
  nearest (x.numerator * y.denominator) (x.denominator * y.numerator)

end Binary64

end DecoderTables.Decimal
