import DecoderTables.Proofs.Json.Answer
import DecoderTables.Proofs.Results
import Mathlib.Algebra.Group.Nat.Defs

/-!
Integers in decimal notation. The text of an integer is read back as that integer when nothing
follows that would carry on the numeral.
-/

namespace DecoderTables.Json

/-- A text that does not carry on a numeral in front of it. -/
def Ends : List Char → Prop
  | [] => True
  | c :: _ => c.isDigit = false ∧ c ≠ '.' ∧ c ≠ 'e' ∧ c ≠ 'E'

theorem ends_append {space text : List Char} (blank : Blank space) (ends : Ends text) :
    Ends (space ++ text) := by
  cases space with
  | nil => exact ends
  | cons c space =>
    have white := blank c List.mem_cons_self
    simp only [isSpace, Bool.or_eq_true, beq_iff_eq] at white
    rcases white with ((rfl | rfl) | rfl) | rfl
    · exact ⟨rfl, by decide, by decide, by decide⟩
    · exact ⟨rfl, by decide, by decide, by decide⟩
    · exact ⟨rfl, by decide, by decide, by decide⟩
    · exact ⟨rfl, by decide, by decide, by decide⟩

/-- Only zero is written with a zero in front. -/
theorem eq_zero_of_toDigits {n : Nat} {digits : List Char}
    (split : Nat.toDigits 10 n = '0' :: digits) : n = 0 := by
  induction n using Nat.strongRecOn generalizing digits with
  | ind n ih =>
    by_cases small : n < 10
    · rw [Nat.toDigits_of_lt_base small] at split
      have digit := (List.cons.inj split).1
      exact (by decide : ∀ n < 10, Nat.digitChar n = '0' → n = 0) n small digit
    · rw [Nat.toDigits_of_base_le (by decide) (by omega)] at split
      cases higher : Nat.toDigits 10 (n / 10) with
      | nil => exact absurd higher Nat.toDigits_ne_nil
      | cons c rest =>
        rw [higher] at split
        obtain ⟨rfl, _⟩ := List.cons.inj split
        have zero := ih (n / 10) (by omega) higher
        omega

namespace Numeral

theorem takeDigits_append {digits rest : List Char} (only : ∀ c ∈ digits, c.isDigit = true)
    (ends : Ends rest) : ∃ noLonger, takeDigits (digits ++ rest) = (digits, ⟨rest, noLonger⟩) := by
  have stops : rest.takeWhile Char.isDigit = [] ∧ rest.dropWhile Char.isDigit = rest := by
    cases rest with
    | nil => exact ⟨rfl, rfl⟩
    | cons c rest => simp [ends.1]
  have taken : (digits ++ rest).takeWhile Char.isDigit = digits := by
    rw [List.takeWhile_append_of_pos only, stops.1, List.append_nil]
  have left : (digits ++ rest).dropWhile Char.isDigit = rest := by
    rw [List.dropWhile_append_of_pos only, stops.2]
  refine ⟨by simp, ?_⟩
  simp only [takeDigits, taken, left]

theorem scanWhole_digits (cut : ReadError) (n : Nat) {rest : List Char} (ends : Ends rest) :
    ∃ shorter, scanWhole cut (Nat.toDigits 10 n ++ rest) =
      .ok (Nat.toDigits 10 n, ⟨rest, shorter⟩) := by
  have only : ∀ c ∈ Nat.toDigits 10 n, c.isDigit = true :=
    fun c member => Nat.isDigit_of_mem_toDigits (by decide) (by decide) member
  cases split : Nat.toDigits 10 n with
  | nil => exact absurd split Nat.toDigits_ne_nil
  | cons c digits =>
    rw [split] at only
    by_cases zero : c = '0'
    · subst zero
      have alone : digits = [] := by
        rw [eq_zero_of_toDigits split, Nat.toDigits_zero] at split
        exact (List.cons.inj split).2.symm
      subst alone
      have stops : ¬(rest.head?.map Char.isDigit).getD false = true := by
        cases rest with
        | nil => simp
        | cons c rest => simp [ends.1]
      rw [List.singleton_append]
      refine ⟨Nat.lt_succ_self _, ?_⟩
      rw [scanWhole, if_neg stops]
      rfl
    · obtain ⟨noLonger, taken⟩ :=
        takeDigits_append (fun d member => only d (List.mem_cons_of_mem _ member)) ends
      rw [List.cons_append]
      refine ⟨Nat.lt_succ_of_le noLonger, ?_⟩
      rw [scanWhole.eq_3 _ _ _ zero, someDigits, if_pos (only c List.mem_cons_self), taken]
      rfl

theorem scanFraction_ends (cut : ReadError) {rest : List Char} (ends : Ends rest) :
    scanFraction cut rest = .ok ([], .whole rest) := by
  unfold scanFraction
  split
  · exact absurd rfl ends.2.1
  · rfl

theorem scanExponent_ends (cut : ReadError) {rest : List Char} (ends : Ends rest) :
    scanExponent cut rest = .ok (false, [], .whole rest) := by
  cases rest with
  | nil => rfl
  | cons c rest =>
    obtain ⟨_, _, lower, upper⟩ := ends
    rw [scanExponent, if_neg (by simp [lower, upper])]
    rfl

theorem scanUnsigned_digits (cut : ReadError) (negative : Bool) (n : Nat) {rest : List Char}
    (ends : Ends rest) : ∃ shorter, scanUnsigned cut negative (Nat.toDigits 10 n ++ rest) =
      .ok (⟨negative, Nat.toDigits 10 n, [], false, []⟩, ⟨rest, shorter⟩) := by
  obtain ⟨shorter, whole⟩ := scanWhole_digits cut n ends
  refine ⟨shorter, ?_⟩
  rw [scanUnsigned, whole]
  change (scanFraction cut rest >>= _) = _
  rw [scanFraction_ends cut ends]
  change (scanExponent cut rest >>= _) = _
  rw [scanExponent_ends cut ends]
  rfl

theorem scan_digits (cut : ReadError) (n : Nat) {rest : List Char} (ends : Ends rest) :
    ∃ shorter, scan cut (Nat.toDigits 10 n ++ rest) =
      .ok (⟨false, Nat.toDigits 10 n, [], false, []⟩, ⟨rest, shorter⟩) := by
  obtain ⟨shorter, read⟩ := scanUnsigned_digits cut false n ends
  have unsigned : ∀ text, Nat.toDigits 10 n ++ rest = '-' :: text → False := by
    intro text same
    cases split : Nat.toDigits 10 n with
    | nil => exact absurd split Nat.toDigits_ne_nil
    | cons c digits =>
      have digit : c.isDigit = true :=
        Nat.isDigit_of_mem_toDigits (by decide) (by decide) (split ▸ List.mem_cons_self)
      rw [split] at same
      obtain ⟨rfl, _⟩ := List.cons.inj same
      cases digit
  refine ⟨shorter, ?_⟩
  rw [scan.eq_2 _ _ unsigned, read]

theorem scan_minus (cut : ReadError) (n : Nat) {rest : List Char} (ends : Ends rest) :
    ∃ shorter, scan cut ('-' :: (Nat.toDigits 10 n ++ rest)) =
      .ok (⟨true, Nat.toDigits 10 n, [], false, []⟩, ⟨rest, shorter⟩) := by
  obtain ⟨shorter, read⟩ := scanUnsigned_digits cut true n ends
  refine ⟨Nat.lt_succ_of_lt shorter, ?_⟩
  rw [scan, read]
  rfl

theorem foldl_toDigits (n : Nat) :
    (Nat.toDigits 10 n).foldl (fun value c => 10 * value + digit c) 0 = n :=
  Nat.ofDigitChars_ten_toDigits

theorem number?_digits {n : Nat} (upper : n < 0x10000000000000000) :
    number? ⟨false, Nat.toDigits 10 n, [], false, []⟩ = some (.integer (.ofNat n upper)) := by
  unfold number? integer?
  simp [foldl_toDigits, upper]

theorem number?_minus {n : Nat} (lower : n ≤ 0x8000000000000000) (positive : n ≠ 0) :
    number? ⟨true, Nat.toDigits 10 n, [], false, []⟩ = some (.integer (.negOfNat n lower)) := by
  unfold number? integer?
  simp [foldl_toDigits, lower, positive]

end Numeral

/-- An integer is the digits of its absolute value, after a minus if it is negative. -/
theorem text_integer (n : Integer) :
    (∃ m upper, n = .ofNat m upper ∧ (Number.integer n).text = Nat.toDigits 10 m) ∨
      ∃ m lower, m ≠ 0 ∧ n = .negOfNat m lower ∧
        (Number.integer n).text = '-' :: Nat.toDigits 10 m := by
  obtain ⟨value, lower, upper⟩ := n
  unfold Number.text
  simp only [Int.toString_eq_repr, Int.repr_eq_if]
  by_cases sign : 0 ≤ value
  · refine Or.inl ⟨value.toNat, by omega, ?_, ?_⟩
    · simp only [Integer.ofNat, Integer.mk.injEq]
      omega
    · rw [if_pos sign, Nat.repr_eq_ofList_toDigits, String.toList_ofList]
  · refine Or.inr ⟨(-value).toNat, by omega, by omega, ?_, ?_⟩
    · simp only [Integer.negOfNat, Integer.mk.injEq]
      omega
    · rw [if_neg sign, String.toList_append, Nat.repr_eq_ofList_toDigits, String.toList_ofList,
        String.toList_ofList, List.singleton_append]

/-- The grammar of an integer, whatever fault the end of the text would be. -/
theorem exists_scan_integer (cut : ReadError) (n : Integer) {rest : List Char} (ends : Ends rest) :
    ∃ numeral shorter, Numeral.scan cut ((Number.integer n).text ++ rest) =
      .ok (numeral, ⟨rest, shorter⟩) ∧ numeral.number? = some (.integer n) := by
  rcases text_integer n with ⟨m, upper, same, text⟩ | ⟨m, lower, positive, same, text⟩
  · rw [text, same]
    obtain ⟨shorter, read⟩ := Numeral.scan_digits cut m ends
    exact ⟨_, shorter, read, Numeral.number?_digits upper⟩
  · rw [text, same]
    obtain ⟨shorter, read⟩ := Numeral.scan_minus cut m ends
    exact ⟨_, shorter, read, Numeral.number?_minus lower positive⟩

theorem numberText_integer (n : Integer) {rest : List Char} (ends : Ends rest) :
    ∃ shorter,
      numberText ((Number.integer n).text ++ rest) = .ok (.integer n, ⟨rest, shorter⟩) := by
  obtain ⟨numeral, shorter, scanned, value⟩ := exists_scan_integer (.endOfText .value) n ends
  refine ⟨shorter, ?_⟩
  unfold numberText
  rw [bind_eq_ok_iff]
  refine ⟨(numeral, ⟨rest, shorter⟩), scanned, ?_⟩
  dsimp only
  rw [value]
  rfl

end DecoderTables.Json
