import DecoderTables.Json.Printer
import DecoderTables.Proofs.Json.Answer

/-!
Strings as they may be written between quotes: a character stands for itself, or is escaped by a
letter, by its code, or by two codes. A reader gives back the characters, whichever form they have.
-/

namespace DecoderTables.Json

/-- A hexadecimal digit of either case. -/
def IsHexDigit (c : Char) (n : Nat) : Prop :=
  n < 16 ∧ (c = Nat.digitChar n ∨ c = (Nat.digitChar n).toUpper)

/-- The four digits of a number below `0x10000`. -/
inductive HexForm (unit : Nat) : List Char → Prop
  | digits {a b c d : Char} (first : IsHexDigit a (unit / 4096))
      (second : IsHexDigit b (unit / 256 % 16)) (third : IsHexDigit c (unit / 16 % 16))
      (fourth : IsHexDigit d (unit % 16)) :
      HexForm unit [a, b, c, d]

/-- The letters of the short escapes, and what they stand for. -/
def shortForms : List (Char × Char) :=
  [('"', '"'), ('\\', '\\'), ('/', '/'), ('b', '\x08'), ('f', '\x0c'), ('n', '\n'), ('r', '\r'),
    ('t', '\t')]

/-- The ways to write a character of a string. -/
inductive CharForm : Char → List Char → Prop
  | plain {c : Char} (printable : 0x20 ≤ c.toNat) (notQuote : c ≠ '"') (notBackslash : c ≠ '\\') :
      CharForm c [c]
  | short {letter c : Char} (listed : (letter, c) ∈ shortForms) : CharForm c ['\\', letter]
  | code {c : Char} {digits : List Char} (form : HexForm c.toNat digits) :
      CharForm c ('\\' :: 'u' :: digits)
  | pair {c : Char} {high low : Nat} {first second : List Char} (highForm : HexForm high first)
      (lowForm : HexForm low second) (highRange : 0xD800 ≤ high ∧ high ≤ 0xDBFF)
      (lowRange : 0xDC00 ≤ low ∧ low ≤ 0xDFFF)
      (value : c.toNat = 0x10000 + 0x400 * (high - 0xD800) + (low - 0xDC00)) :
      CharForm c ('\\' :: 'u' :: (first ++ '\\' :: 'u' :: second))

inductive BodyForm : List Char → List Char → Prop
  | nil : BodyForm [] []
  | cons {c : Char} {piece chars text : List Char} (head : CharForm c piece)
      (tail : BodyForm chars text) : BodyForm (c :: chars) (piece ++ text)

/-- The ways to write a string, quotes included. -/
inductive QuotedForm (s : String) : List Char → Prop
  | quoted {body : List Char} (form : BodyForm s.toList body) :
      QuotedForm s ('"' :: (body ++ ['"']))

theorem hexDigit?_of_isHexDigit {c : Char} {n : Nat} (digit : IsHexDigit c n) :
    hexDigit? c = some n := by
  obtain ⟨bound, rfl | rfl⟩ := digit
  · exact (by decide : ∀ n < 16, hexDigit? (Nat.digitChar n) = some n) n bound
  · exact (by decide : ∀ n < 16, hexDigit? (Nat.digitChar n).toUpper = some n) n bound

theorem hexUnit_of_form {unit : Nat} {digits : List Char} (form : HexForm unit digits)
    (rest : List Char) : ∃ shorter, hexUnit (digits ++ rest) = .ok (unit, ⟨rest, shorter⟩) := by
  obtain @⟨a, b, c, d, first, second, third, fourth⟩ := form
  have bound := first.1
  have read : hexValue? [a, b, c, d] = some unit := by
    simp only [hexValue?, List.foldlM_cons, List.foldlM_nil, hexDigit?_of_isHexDigit first,
      hexDigit?_of_isHexDigit second, hexDigit?_of_isHexDigit third,
      hexDigit?_of_isHexDigit fourth, Option.map_some, Option.bind_eq_bind, Option.bind_some,
      Option.pure_def, Option.some.injEq]
    omega
  refine ⟨by simp only [List.length_append, List.length_cons]; omega, ?_⟩
  simp only [List.cons_append, List.nil_append, hexUnit, read]

theorem shortEscape?_of_mem {letter c : Char} (listed : (letter, c) ∈ shortForms) :
    shortEscape? letter = some c := by
  simp only [shortForms, List.mem_cons, Prod.mk.injEq, List.not_mem_nil, or_false] at listed
  rcases listed with ⟨rfl, rfl⟩ | ⟨rfl, rfl⟩ | ⟨rfl, rfl⟩ | ⟨rfl, rfl⟩ | ⟨rfl, rfl⟩ | ⟨rfl, rfl⟩ |
    ⟨rfl, rfl⟩ | ⟨rfl, rfl⟩ <;> rfl


theorem codeEscape_of_unit {c : Char} {digits : List Char} (form : HexForm c.toNat digits)
    (rest : List Char) : ∃ shorter, codeEscape (digits ++ rest) = .ok (c, ⟨rest, shorter⟩) := by
  obtain ⟨shorter, read⟩ := hexUnit_of_form form rest
  have scalar : c.toNat < 0xD800 ∨ 0xDFFF < c.toNat ∧ c.toNat < 0x110000 := c.valid
  have notLow : ¬(0xDC00 ≤ c.toNat && c.toNat ≤ 0xDFFF) = true := by simp; omega
  have notHigh : ¬(0xD800 ≤ c.toNat && c.toNat ≤ 0xDBFF) = true := by simp; omega
  refine ⟨shorter, ?_⟩
  unfold codeEscape
  rw [read]
  change (if _ then _ else if _ then _ else _) = _
  rw [if_neg notLow, if_neg notHigh, Char.ofNat_toNat]
  rfl

theorem lowSurrogate_of_form {c : Char} {high low : Nat} {digits : List Char}
    (form : HexForm low digits) (range : 0xDC00 ≤ low ∧ low ≤ 0xDFFF)
    (value : c.toNat = 0x10000 + 0x400 * (high - 0xD800) + (low - 0xDC00)) (rest : List Char) :
    ∃ shorter, lowSurrogate high ('\\' :: 'u' :: (digits ++ rest)) = .ok (c, ⟨rest, shorter⟩) := by
  obtain ⟨shorter, read⟩ := hexUnit_of_form form rest
  have inside : (0xDC00 ≤ low && low ≤ 0xDFFF) = true := by simpa using range
  refine ⟨by simp only [List.length_cons]; omega, ?_⟩
  rw [lowSurrogate, if_pos (by decide), read]
  change (if _ then _ else _) = _
  rw [if_pos inside, ← value, Char.ofNat_toNat]
  rfl

theorem codeEscape_of_pair {c : Char} {high low : Nat} {first second : List Char}
    (highForm : HexForm high first) (lowForm : HexForm low second)
    (highRange : 0xD800 ≤ high ∧ high ≤ 0xDBFF) (lowRange : 0xDC00 ≤ low ∧ low ≤ 0xDFFF)
    (value : c.toNat = 0x10000 + 0x400 * (high - 0xD800) + (low - 0xDC00)) (rest : List Char) :
    ∃ shorter, codeEscape (first ++ '\\' :: 'u' :: (second ++ rest)) =
      .ok (c, ⟨rest, shorter⟩) := by
  obtain ⟨shorter, read⟩ := hexUnit_of_form highForm ('\\' :: 'u' :: (second ++ rest))
  obtain ⟨lowShorter, lowRead⟩ := lowSurrogate_of_form lowForm lowRange value rest
  have notLow : ¬(0xDC00 ≤ high && high ≤ 0xDFFF) = true := by simp; omega
  have inside : (0xD800 ≤ high && high ≤ 0xDBFF) = true := by simpa using highRange
  refine ⟨Nat.lt_trans lowShorter shorter, ?_⟩
  unfold codeEscape
  rw [read]
  change (if _ then _ else if _ then _ else _) = _
  rw [if_neg notLow, if_pos inside, lowRead]
  rfl

/-- A character stands for itself, or an escape follows a backslash. -/
theorem CharForm.plain_or_escape {c : Char} {piece : List Char} (form : CharForm c piece) :
    (piece = [c] ∧ c ≠ '"' ∧ c ≠ '\\' ∧ ¬c.toNat < 0x20) ∨
      ∃ tail, piece = '\\' :: tail ∧
        ∀ rest, ∃ shorter, escape (tail ++ rest) = .ok (c, ⟨rest, shorter⟩) := by
  cases form with
  | plain printable notQuote notBackslash =>
    exact Or.inl ⟨rfl, notQuote, notBackslash, Nat.not_lt.mpr printable⟩
  | @short letter c listed =>
    refine Or.inr ⟨[letter], rfl, fun rest => ?_⟩
    rw [List.singleton_append]
    refine ⟨Nat.lt_succ_self _, ?_⟩
    rw [escape, shortEscape?_of_mem listed]
    rfl
  | @code c digits form =>
    refine Or.inr ⟨'u' :: digits, rfl, fun rest => ?_⟩
    obtain ⟨shorter, read⟩ := codeEscape_of_unit form rest
    rw [List.cons_append]
    refine ⟨Nat.lt_succ_of_lt shorter, ?_⟩
    rw [escape, read]
    rfl
  | @pair c high low first second highForm lowForm highRange lowRange value =>
    refine Or.inr ⟨'u' :: (first ++ '\\' :: 'u' :: second), rfl, fun rest => ?_⟩
    obtain ⟨shorter, read⟩ := codeEscape_of_pair highForm lowForm highRange lowRange value rest
    have joined : 'u' :: (first ++ '\\' :: 'u' :: second) ++ rest =
        'u' :: (first ++ '\\' :: 'u' :: (second ++ rest)) := by simp
    rw [joined]
    refine ⟨Nat.lt_succ_of_lt shorter, ?_⟩
    rw [escape, read]
    rfl

theorem stringBody_of_form {chars text : List Char} (form : BodyForm chars text)
    (rest : List Char) :
    ∃ shorter, stringBody (text ++ '"' :: rest) = .ok (chars, ⟨rest, shorter⟩) := by
  induction form with
  | nil =>
    rw [List.nil_append]
    refine ⟨Nat.lt_succ_self _, ?_⟩
    rw [stringBody, if_pos rfl]
    rfl
  | @cons c piece chars text head tail ih =>
    obtain ⟨shorter, read⟩ := ih
    rw [List.append_assoc]
    rcases head.plain_or_escape with
      ⟨rfl, notQuote, notBackslash, printable⟩ | ⟨after, rfl, escapes⟩
    · rw [List.singleton_append]
      refine ⟨Nat.lt_succ_of_lt shorter, ?_⟩
      rw [stringBody, if_neg notQuote, if_neg notBackslash,
        if_neg printable, read]
      rfl
    · obtain ⟨escapeShorter, escaped⟩ := escapes (text ++ '"' :: rest)
      rw [List.cons_append]
      refine ⟨Nat.lt_succ_of_lt (Nat.lt_trans shorter escapeShorter), ?_⟩
      rw [stringBody, if_neg (by decide), if_pos rfl, escaped]
      change (stringBody (text ++ '"' :: rest) >>= _) = _
      rw [read]
      rfl

/-- Codes are skipped one by one, also those of a pair. -/
theorem skipString_code {unit : Nat} {digits text rest : List Char} (form : HexForm unit digits)
    (skips : ∃ shorter, skipString text = .ok ⟨rest, shorter⟩) :
    ∃ shorter, skipString ('\\' :: 'u' :: (digits ++ text)) = .ok ⟨rest, shorter⟩ := by
  obtain ⟨shorter, skipped⟩ := skips
  obtain ⟨unitShorter, read⟩ := hexUnit_of_form form text
  refine ⟨Nat.lt_succ_of_lt (Nat.lt_succ_of_lt (Nat.lt_trans shorter unitShorter)), ?_⟩
  rw [skipString, if_neg (by decide), if_pos rfl, skipEscape, if_neg (by decide), if_pos rfl, read]
  change (skipString text >>= _) = _
  rw [skipped]
  rfl

theorem skipString_of_form {chars text : List Char} (form : BodyForm chars text)
    (rest : List Char) : ∃ shorter, skipString (text ++ '"' :: rest) = .ok ⟨rest, shorter⟩ := by
  induction form with
  | nil =>
    rw [List.nil_append]
    refine ⟨Nat.lt_succ_self _, ?_⟩
    rw [skipString, if_pos rfl]
    rfl
  | @cons c piece chars text head tail ih =>
    rw [List.append_assoc]
    cases head with
    | plain printable notQuote notBackslash =>
      obtain ⟨shorter, skipped⟩ := ih
      rw [List.singleton_append]
      refine ⟨Nat.lt_succ_of_lt shorter, ?_⟩
      rw [skipString, if_neg notQuote, if_neg notBackslash,
        if_neg (Nat.not_lt.mpr printable), skipped]
      rfl
    | @short letter c listed =>
      obtain ⟨shorter, skipped⟩ := ih
      refine ⟨Nat.lt_succ_of_lt (Nat.lt_succ_of_lt shorter), ?_⟩
      have known : (shortEscape? letter).isSome = true := by rw [shortEscape?_of_mem listed]; rfl
      change skipString ('\\' :: letter :: (text ++ '"' :: rest)) = _
      rw [skipString, if_neg (by decide), if_pos rfl, skipEscape, if_pos known]
      change (skipString (text ++ '"' :: rest) >>= _) = _
      rw [skipped]
      rfl
    | code form => exact skipString_code form ih
    | pair highForm lowForm =>
      rw [List.cons_append, List.cons_append, List.append_assoc]
      exact skipString_code highForm (skipString_code lowForm ih)

theorem quotedText_of_form {s : String} {body : List Char} (form : BodyForm s.toList body)
    (rest : List Char) : ∃ shorter, quotedText (body ++ '"' :: rest) = .ok (s, ⟨rest, shorter⟩) := by
  obtain ⟨shorter, read⟩ := stringBody_of_form form rest
  refine ⟨shorter, ?_⟩
  rw [quotedText, read]
  exact congrArg (fun s => Except.ok (s, _)) String.ofList_toList

theorem answer_memberName {name : String} {space text : List Char} (blank : Blank space)
    (form : QuotedForm name text) (rest : List Char) :
    memberName.answer (space ++ (text ++ rest)) = some (name, rest) := by
  obtain @⟨body, form⟩ := form
  obtain ⟨shorter, read⟩ := quotedText_of_form form rest
  have joined : '"' :: (body ++ ['"']) ++ rest = '"' :: (body ++ '"' :: rest) := by simp
  rw [memberName, answer_token, joined, skipSpace_append_cons blank (by decide)]
  simp only [Reader.answer, ↓reduceIte, read]
  rfl

theorem charForm_escapedChar (c : Char) : CharForm c (escapedChar c) := by
  unfold escapedChar
  split
  · exact .short (by decide)
  · exact .short (by decide)
  · exact .short (by decide)
  · exact .short (by decide)
  · exact .short (by decide)
  · exact .short (by decide)
  · exact .short (by decide)
  · next notQuote notBackslash _ _ _ _ _ =>
      split
      · next control =>
          have digit : ∀ n < 16, IsHexDigit (Nat.digitChar n) n :=
            fun n bound => ⟨bound, Or.inl rfl⟩
          have first : c.toNat / 4096 = 0 := by omega
          have second : c.toNat / 256 % 16 = 0 := by omega
          have third : c.toNat / 16 % 16 = c.toNat / 16 := by omega
          refine .code (.digits ?_ ?_ ?_ ?_)
          · rw [first]
            exact digit 0 (by decide)
          · rw [second]
            exact digit 0 (by decide)
          · rw [third]
            exact digit _ (by omega)
          · exact digit _ (by omega)
      · next printable => exact .plain (Nat.not_lt.mp printable) notQuote notBackslash

theorem bodyForm_escaped (chars : List Char) : BodyForm chars (chars.flatMap escapedChar) := by
  induction chars with
  | nil => exact .nil
  | cons c chars ih => exact .cons (charForm_escapedChar c) ih

theorem quotedForm_quote (s : String) : QuotedForm s (quote s) :=
  .quoted (bodyForm_escaped s.toList)

end DecoderTables.Json
