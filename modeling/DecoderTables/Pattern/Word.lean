import DecoderTables.Pattern.Run

/-!
The arithmetic of runs and checks in words of a machine. A step fails where its result is not in the
range of the word: a difference below zero, a shift by the whole width or more, a shift that loses a
bit on the left, and a half-word that does not hold all bits of a longer word.
-/

namespace DecoderTables

namespace Word

def sub? (total part : Nat) : Option Nat :=
  if part ≤ total then some (total - part) else none

def shiftLeft? {width : Nat} (word : BitVec width) (places : Nat) : Option (BitVec width) :=
  if places < width ∧ word.toNat <<< places < 1 <<< width then some (word <<< places) else none

def shiftRight? {width : Nat} (word : BitVec width) (places : Nat) : Option (BitVec width) :=
  if places < width then some (word >>> places) else none

def half? (word : BitVec 32) : Option HalfWord :=
  if word.toNat < 1 <<< 16 then some (word.setWidth 16) else none

end Word

namespace Run

def width? (run : Run) : Option Nat :=
  (Word.sub? run.stop run.start).map (· + 1)

def high? (run : Run) : Option Nat :=
  Word.sub? (halfWidth - 1) run.start

def low? (run : Run) : Option Nat :=
  Word.sub? (halfWidth - 1) run.stop

end Run

/-- The mask and the value of a check. Those of a range are made in words of 32 bits: as many ones
as the range is wide are left of all ones, and both words are moved to the lowest bit. -/
def Check.words? : Check → Option (HalfWord × HalfWord)
  | .bit place value => do
      let mask ← Word.shiftLeft? 1#16 place
      let value ← Word.shiftLeft? (BitVec.ofNat 16 value.toNat) place
      return (mask, value)
  | .range high low literal => do
      let span ← Word.sub? high low
      let spare ← Word.sub? 32 (span + 1)
      let ones ← Word.shiftRight? (BitVec.allOnes 32) spare
      let mask ← Word.shiftLeft? ones low
      let value ← Word.shiftLeft? (BitVec.ofNat 32 ((literalValue? literal).getD 0)) low
      return (← Word.half? mask, ← Word.half? value)

end DecoderTables
