import DecoderTables.Decimal.Binary64

/-!
Values of a JSON text. The members of an object keep their order, and a name occurs once.
-/

namespace DecoderTables.Json
open Decimal

/-- An integer that fits in 64 bits, with or without a sign. -/
structure Integer where
  value : Int
  lower : -0x8000000000000000 ≤ value
  upper : value < 0x10000000000000000
deriving DecidableEq

def Integer.ofNat (n : Nat) (upper : n < 0x10000000000000000) : Integer :=
  ⟨n, by omega, by omega⟩

/-- A natural number cut to 64 bits. -/
def Integer.natural (n : Nat) : Integer :=
  .ofNat (n % 0x10000000000000000) (Nat.mod_lt _ (by decide))

/-- The least negative integer is `-2 ^ 63`. -/
def Integer.negOfNat (n : Nat) (lower : n ≤ 0x8000000000000000) : Integer :=
  ⟨-n, by omega, by omega⟩

inductive Number where
  | integer (n : Integer)
  | real (x : Binary64)
deriving DecidableEq

inductive Value where
  | null
  | bool (b : Bool)
  | number (n : Number)
  | string (text : String)
  | array (items : List Value)
  | object (members : List (String × Value))

def Value.natural (n : Nat) : Value :=
  .number (.integer (.natural n))

abbrev Members := List (String × Value)

namespace Members

/-- A new name goes to the end, a present one keeps its place and gets the new value. -/
def put (members : Members) (name : String) (value : Value) : Members :=
  match members with
  | [] => [(name, value)]
  | (key, old) :: rest =>
      if key = name then (key, value) :: rest else (key, old) :: put rest name value

def get? (members : Members) (name : String) : Option Value :=
  members.lookup name

end Members

/-- An integer and a real number are never equal. -/
def Number.equals : Number → Number → Bool
  | .integer m, .integer n => m = n
  | .real x, .real y => x.equals y
  | _, _ => false

mutual

/-- Equality of data: the order of the members of an object does not count. -/
def Value.equals : Value → Value → Bool
  | .null, .null => true
  | .bool a, .bool b => a == b
  | .number m, .number n => m.equals n
  | .string s, .string t => s == t
  | .array xs, .array ys => Value.itemsEqual xs ys
  | .object xs, .object ys => xs.length == ys.length && Value.membersIn ys xs
  | _, _ => false

def Value.itemsEqual : List Value → List Value → Bool
  | [], [] => true
  | x :: xs, y :: ys => x.equals y && Value.itemsEqual xs ys
  | _, _ => false

/-- Whether every member of the second list is one of the first. -/
def Value.membersIn (all : Members) : Members → Bool
  | [] => true
  | (name, x) :: rest =>
      (match all.get? name with
        | some y => x.equals y
        | none => false) && Value.membersIn all rest

end

def Members.equals (xs ys : Members) : Bool :=
  Value.equals (.object xs) (.object ys)

end DecoderTables.Json
