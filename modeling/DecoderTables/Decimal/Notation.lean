import DecoderTables.Decimal.Shortest

/-!
Decimal text of a finite floating-point number: positional with a digit on each side of the
point while the leading digit stands for `10 ^ -5` to `10 ^ 15`, otherwise with an exponent that
always shows its sign.
-/

namespace DecoderTables.Decimal

private def zeros (count : Nat) : List Char :=
  List.replicate count '0'

def Digits.positional (ds : List Char) (leading : Int) : List Char :=
  if leading < 0 then
    ['0', '.'] ++ zeros (-leading - 1).toNat ++ ds
  else
    let whole := leading.toNat + 1
    if ds.length ≤ whole then ds ++ zeros (whole - ds.length) ++ ['.', '0']
    else ds.take whole ++ '.' :: ds.drop whole

def Digits.scientific (ds : List Char) (leading : Int) : List Char :=
  let fraction := if ds.length ≤ 1 then [] else '.' :: ds.drop 1
  let sign := if leading < 0 then '-' else '+'
  ds.take 1 ++ fraction ++ 'e' :: sign :: Nat.toDigits 10 leading.natAbs

def Digits.text (d : Digits) : List Char :=
  let ds := Nat.toDigits 10 d.digits
  let leading := d.exponent + ds.length - 1
  if -5 ≤ leading && leading ≤ 15 then positional ds leading else scientific ds leading

def Binary64.text (x : Binary64) : List Char :=
  (if x.isNegative then ['-'] else []) ++
    if x.isZero then ['0', '.', '0'] else x.shortest.text

end DecoderTables.Decimal
