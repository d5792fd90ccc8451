import DecoderTables.Json.Reader.Value

/-!
Values that are only checked for their syntax. Numbers have no range, the halves of a pair of
surrogates are not matched, and brackets nest without a limit: the brackets that are still open
are kept in a list.
-/

namespace DecoderTables.Json

/-- A value without brackets. -/
def skipScalar (c : Char) (text : List Char) : Except ReadError (Rest (c :: text)) :=
  if c = '"' then do
    let rest ← skipString text
    return rest.afterCons c
  else if c = 'n' then do
    let rest ← word ['u', 'l', 'l'] text
    return rest.ofCons c
  else if c = 't' then do
    let rest ← word ['r', 'u', 'e'] text
    return rest.ofCons c
  else if c = 'f' then do
    let rest ← word ['a', 'l', 's', 'e'] text
    return rest.ofCons c
  else if c = '-' || c.isDigit then do
    let (_, rest) ← Numeral.scan .invalidNumber (c :: text)
    return rest
  else .error .expectedValue

def Bracket.ofOpening? (c : Char) : Option Bracket :=
  if c = '[' then some .square else if c = '\x7b' then some .curly else none

/-- A name and its colon. -/
def skipName (text : List Char) : Except ReadError (Rest text) :=
  match found : skipSpace text with
  | [] => .error (.endOfText .object)
  | c :: more =>
      if c = '"' then do
        let rest ← skipString more
        let last ← colon rest.chars
        return ((rest.trans last).afterCons c).within (length_le_of_skipSpace found)
      else .error .keyNotString

mutual

/-- A value inside the open brackets `outer`, up to the end of the outermost one. -/
def skipValue (outer : List Bracket) (text : List Char) : Except ReadError (Rest text) :=
  match found : skipSpace text with
  | [] => .error (.endOfText .value)
  | c :: more =>
      have inside : (c :: more).length ≤ text.length := length_le_of_skipSpace found
      match Bracket.ofOpening? c with
      | some bracket => do
          let rest ← skipFollowing true (bracket :: outer) more
          return (rest.ofCons c).within inside
      | none => do
          let rest ← skipScalar c more
          let last ← skipFollowing false outer rest.chars
          return (rest.transTail last).within inside
termination_by (text.length, 0)
decreasing_by
  · exact Prod.Lex.left _ _ (Nat.lt_of_lt_of_le (Nat.lt_succ_self _) inside)
  · exact Prod.Lex.left _ _ (Nat.lt_of_lt_of_le rest.shorter inside)

/-- What follows a value, or an opening bracket if `first`. -/
def skipFollowing (first : Bool) (opened : List Bracket) (text : List Char) :
    Except ReadError (Tail text) :=
  match opened with
  | [] => .ok ⟨text, Nat.le_refl _⟩
  | bracket :: outer =>
      match found : skipSpace text with
      | [] => .error bracket.unfinished
      | c :: more =>
          have inside : (c :: more).length ≤ text.length := length_le_of_skipSpace found
          if c = bracket.close then do
            let rest ← skipFollowing false outer more
            return ⟨rest.chars, Nat.le_trans rest.noLonger
              (Nat.le_of_lt (Nat.lt_of_lt_of_le (Nat.lt_succ_self _) inside))⟩
          else if first || c = ',' then do
            let start : Tail text :=
              if first then ⟨text, Nat.le_refl _⟩
              else ⟨more, Nat.le_of_lt (Nat.lt_of_lt_of_le (Nat.lt_succ_self _) inside)⟩
            match bracket with
            | .square => do
                let rest ← skipValue (bracket :: outer) start.chars
                return ⟨rest.chars, Nat.le_trans (Nat.le_of_lt rest.shorter) start.noLonger⟩
            | .curly => do
                let name ← skipName start.chars
                let rest ← skipValue (bracket :: outer) name.chars
                return ⟨rest.chars, Nat.le_trans (Nat.le_of_lt (name.trans rest).shorter)
                  start.noLonger⟩
          else .error bracket.unseparated
termination_by (text.length, 1)
decreasing_by
  · exact Prod.Lex.left _ _ (Nat.lt_of_lt_of_le (Nat.lt_succ_self _) inside)
  · rcases Nat.lt_or_eq_of_le start.noLonger with shorter | same
    · exact Prod.Lex.left _ _ shorter
    · rw [same]; exact Prod.Lex.right _ Nat.zero_lt_one
  · exact Prod.Lex.left _ _ (Nat.lt_of_lt_of_le name.shorter start.noLonger)

end

def ignored : Reader Unit := fun text => do
  let rest ← skipValue [] text
  return ((), rest)

end DecoderTables.Json
