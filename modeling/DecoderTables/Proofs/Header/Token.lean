import DecoderTables.Header.Decoders
import DecoderTables.Proofs.BinaryDigits

/-!
Lines of C++ as words and symbols. A line is read by comparing it with a template: the words of the
line at the places where the template has `_` are what the line says.
-/

namespace DecoderTables.Header

inductive Token where
  | word (text : List Char)
  | symbol (c : Char)
deriving DecidableEq

def isWordChar (c : Char) : Bool :=
  c.isAlphanum || c = '_'

/-- A text that can stand as one word. -/
def IsWord (text : List Char) : Prop :=
  ∀ c ∈ text, isWordChar c = true

theorem isWord_of_all {text : List Char} (all : text.all isWordChar = true) : IsWord text :=
  List.all_eq_true.mp all

def Token.ofWord : List Char → List Token
  | [] => []
  | text => [.word text]

theorem Token.ofWord_nil : Token.ofWord [] = [] := rfl

theorem Token.ofWord_of_ne_nil {text : List Char} (nonempty : text ≠ []) :
    Token.ofWord text = [.word text] := by
  cases text with
  | nil => exact absurd rfl nonempty
  | cons c text => rfl

/-- The tokens of a text that goes on after the first characters of a word. A comment ends the
line. -/
def tokensFrom (word : List Char) : List Char → List Token
  | [] => Token.ofWord word
  | c :: rest =>
      if isWordChar c then tokensFrom (word ++ [c]) rest
      else if c = '/' ∧ rest.head? = some '/' then Token.ofWord word
      else if c = ' ' then Token.ofWord word ++ tokensFrom [] rest
      else Token.ofWord word ++ .symbol c :: tokensFrom [] rest

def tokens (line : String) : List Token :=
  tokensFrom [] line.toList

theorem tokensFrom_append (word text rest : List Char) (plain : IsWord text) :
    tokensFrom word (text ++ rest) = tokensFrom (word ++ text) rest := by
  induction text generalizing word with
  | nil => rw [List.nil_append, List.append_nil]
  | cons c text ih =>
    have here := plain c List.mem_cons_self
    rw [List.cons_append, tokensFrom, if_pos here,
      ih _ fun other member => plain other (List.mem_cons_of_mem _ member), List.append_assoc,
      List.singleton_append]

/-- A line has the same tokens at every level of indentation. -/
theorem tokens_line (level : Nat) (text : String) : tokens (line level text) = tokens text := by
  rw [tokens, line, indent, String.toList_append, String.toList_ofList]
  induction 2 * level with
  | zero => rfl
  | succ width ih =>
    rw [List.replicate_succ, List.cons_append]
    exact ih

def captureTokens : List Token → List Token → Option (List (List Char))
  | [], [] => some []
  | .word ['_'] :: template, .word text :: line => (captureTokens template line).map (text :: ·)
  | expected :: template, found :: line =>
      if expected = found then captureTokens template line else none
  | _, _ => none

/-- The words of a line where a template has `_`, if the line has the form of the template. -/
def capture (template line : String) : Option (List (List Char)) :=
  captureTokens (tokens template) (tokens line)

/-- The number written by decimal digits. -/
def decimalDigits? (digits : List Char) : Option Nat :=
  if digits ≠ [] ∧ digits.all (·.isDigit) then some (Nat.ofDigitChars 10 digits 0) else none

/-- The number of an unsigned literal in base two or ten. -/
def numeral? (word : List Char) : Option Nat :=
  if word.getLast? = some 'U' then
    match word.dropLast with
    | '0' :: 'b' :: digits => if digits = [] then none else binaryDigits? digits
    | digits => decimalDigits? digits
  else none

theorem numeral?_binary (digits : List Char) (nonempty : digits ≠ []) :
    numeral? ('0' :: 'b' :: digits ++ ['U']) = binaryDigits? digits := by
  rw [numeral?, List.getLast?_concat, List.dropLast_concat, if_pos rfl]
  exact if_neg nonempty

theorem numeral?_toDigits (n : Nat) : numeral? (Nat.toDigits 10 n ++ ['U']) = some n := by
  have digit : ∀ c ∈ Nat.toDigits 10 n, c.isDigit = true :=
    fun c member => Nat.isDigit_of_mem_toDigits (by decide) (by decide) member
  have read : decimalDigits? (Nat.toDigits 10 n) = some n := by
    rw [decimalDigits?, if_pos ⟨Nat.toDigits_ne_nil, List.all_eq_true.mpr digit⟩,
      Nat.ofDigitChars_ten_toDigits]
  rw [numeral?, List.getLast?_concat, List.dropLast_concat, if_pos rfl]
  split
  · next digits same =>
      have letter := digit 'b' (by simp [same])
      cases letter
  · exact read

theorem isWord_of_isDigits {digits : List Char} (only : IsDigits digits) : IsWord digits := by
  intro c member
  rcases only c member with rfl | rfl
  · rfl
  · rfl

theorem isWord_toDigits (n : Nat) : IsWord (Nat.toDigits 10 n) := by
  intro c member
  have digit : c.isDigit = true := Nat.isDigit_of_mem_toDigits (by decide) (by decide) member
  simp [isWordChar, Char.isAlphanum, digit]

end DecoderTables.Header
