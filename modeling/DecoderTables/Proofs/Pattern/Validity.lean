import DecoderTables.Document.Basic
import DecoderTables.Proofs.Pattern.Agreement
import DecoderTables.Proofs.Results

/-!
Which texts are patterns, and what is reported of a text that is none.
-/

namespace DecoderTables

theorem isPatternChar_iff (c : Char) : isPatternChar c = true ↔ c = '0' ∨ c = '1' ∨ c = 'x' := by
  simp only [isPatternChar, Bool.or_eq_true, decide_eq_true_eq, or_assoc]
  rfl

/-- Sixteen digits and wildcards. -/
def IsPatternText (text : String) : Prop :=
  text.toList.length = 16 ∧ ∀ c ∈ text.toList, c = '0' ∨ c = '1' ∨ c = 'x'

theorem validate_eq_ok_iff_isPatternText (text : String) :
    validate text = .ok () ↔ IsPatternText text := by
  simp only [validate_eq_ok_iff, isPatternChar_iff]
  rfl

theorem HalfPattern.ofText_eq_ok_iff (text : String) (pattern : HalfPattern) :
    HalfPattern.ofText text = .ok pattern ↔ pattern.text = text := by
  obtain ⟨own, valid⟩ := pattern
  unfold ofText
  split
  · next fits =>
      simp only [Except.ok.injEq, HalfPattern.mk.injEq, eq_comm]
  · next fault invalid =>
      simp only [reduceCtorEq, false_iff]
      rintro rfl
      rw [valid] at invalid
      cases invalid

theorem HalfPattern.ofText_eq_error_iff (text : String) (reason : PatternError) :
    HalfPattern.ofText text = .error reason ↔ validate text = .error reason := by
  unfold ofText
  split
  · next valid => simp [valid]
  · next fault invalid => simp [invalid]

theorem HalfPattern.exists_ofText_iff (text : String) :
    (∃ pattern, HalfPattern.ofText text = .ok pattern) ↔ IsPatternText text := by
  simp only [HalfPattern.ofText_eq_ok_iff, ← validate_eq_ok_iff_isPatternText]
  exact ⟨fun ⟨pattern, same⟩ => same ▸ pattern.valid, fun valid => ⟨⟨text, valid⟩, rfl⟩⟩

/-- Every given half of a pattern has sixteen digits and wildcards. -/
def PatternEntry.Fits (pattern : PatternEntry) : Prop :=
  IsPatternText pattern.lo ∧ ∀ hi, pattern.hi = some hi → IsPatternText hi

theorem BitPattern.exists_ofTexts_iff (pattern : PatternEntry) :
    (∃ made, BitPattern.ofTexts pattern.lo pattern.hi = .ok made) ↔ pattern.Fits := by
  simp only [PatternEntry.Fits, ← HalfPattern.exists_ofText_iff]
  unfold ofTexts
  simp only [bind_eq_ok_iff, mapError_eq_ok_iff]
  cases pattern.hi with
  | none =>
    apply Iff.intro
    · intro given
      obtain ⟨made, low, lo, _⟩ := given
      exact ⟨⟨low, lo⟩, fun hi given => by cases given⟩
    · intro given
      obtain ⟨⟨low, lo⟩, _⟩ := given
      exact ⟨⟨low, none⟩, low, lo, rfl⟩
  | some hi =>
    simp only [bind_eq_ok_iff, mapError_eq_ok_iff, Option.some.injEq, forall_eq']
    apply Iff.intro
    · intro given
      obtain ⟨made, low, lo, high, hi, _⟩ := given
      exact ⟨⟨low, lo⟩, high, hi⟩
    · intro given
      obtain ⟨⟨low, lo⟩, high, hi⟩ := given
      exact ⟨⟨low, some high⟩, low, lo, high, hi, rfl⟩

/-- The texts a pattern was read from. -/
def BitPattern.texts (pattern : BitPattern) : PatternEntry :=
  ⟨pattern.lo.text, pattern.hi.map (·.text)⟩

theorem BitPattern.texts_of_ofTexts {entry : PatternEntry} {pattern : BitPattern}
    (made : BitPattern.ofTexts entry.lo entry.hi = .ok pattern) : pattern.texts = entry := by
  obtain ⟨lo, hi⟩ := entry
  unfold ofTexts at made
  simp only [bind_eq_ok_iff, mapError_eq_ok_iff, HalfPattern.ofText_eq_ok_iff] at made
  obtain ⟨low, rfl, made⟩ := made
  cases hi with
  | none =>
    cases made
    rfl
  | some hi =>
    simp only [bind_eq_ok_iff, mapError_eq_ok_iff, HalfPattern.ofText_eq_ok_iff] at made
    obtain ⟨high, rfl, made⟩ := made
    cases made
    rfl

/-- The first thing that is wrong with a pattern text: its length, or else the first character that
is no digit and no wildcard, with its place. -/
inductive PatternFault (text : String) : PatternError → Prop
  | length (wrong : text.toList.length ≠ 16) : PatternFault text (.length text.toList.length)
  | character {before after : List Char} {c : Char} (split : text.toList = before ++ c :: after)
      (length : text.toList.length = 16)
      (earlier : ∀ other ∈ before, other = '0' ∨ other = '1' ∨ other = 'x')
      (wrong : ¬(c = '0' ∨ c = '1' ∨ c = 'x')) : PatternFault text (.character before.length c)

theorem find?_zipIdx_eq_some_split (wrong : Char → Bool) (start : Nat) (chars : List Char) (c : Char)
    (index : Nat) (found : (chars.zipIdx start).find? (wrong ·.1) = some (c, index)) :
    ∃ before after, chars = before ++ c :: after ∧ index = start + before.length ∧
      (∀ other ∈ before, wrong other = false) ∧ wrong c = true := by
  induction chars generalizing start with
  | nil => cases found
  | cons first rest ih =>
    rw [List.zipIdx_cons, List.find?_cons] at found
    cases judged : wrong first with
    | true =>
      rw [judged] at found
      cases found
      exact ⟨[], rest, rfl, rfl, fun _ member => (nomatch member), judged⟩
    | false =>
      rw [judged] at found
      obtain ⟨before, after, rfl, rfl, fine, bad⟩ := ih (start + 1) found
      refine ⟨first :: before, after, rfl, ?_, ?_, bad⟩
      · rw [List.length_cons]
        omega
      · exact List.forall_mem_cons.mpr ⟨judged, fine⟩

theorem patternFault_of_validate {text : String} {reason : PatternError}
    (invalid : validate text = .error reason) : PatternFault text reason := by
  unfold validate at invalid
  by_cases length : text.toList.length = halfWidth
  · simp only [length, ne_eq, not_true_eq_false, ↓reduceIte] at invalid
    cases found : text.toList.zipIdx.find? (!isPatternChar ·.1) with
    | none =>
      rw [found] at invalid
      cases invalid
    | some fault =>
      obtain ⟨c, index⟩ := fault
      rw [found] at invalid
      cases invalid
      obtain ⟨before, after, split, place, fine, bad⟩ :=
        find?_zipIdx_eq_some_split (!isPatternChar ·) 0 text.toList c index found
      rw [place, Nat.zero_add]
      apply PatternFault.character split length
      · intro other member
        rw [← isPatternChar_iff]
        simpa using fine other member
      · rw [← isPatternChar_iff]
        simpa using bad
  · simp only [length, ne_eq, not_false_eq_true, ↓reduceIte, Except.error.injEq] at invalid
    subst invalid
    exact PatternFault.length length

/-- A pattern is refused for its low half, or for its high half after a valid low half. -/
theorem BitPattern.fault_of_ofTexts {pattern : PatternEntry} {text : String}
    {reason : PatternError}
    (refused : BitPattern.ofTexts pattern.lo pattern.hi = .error (text, reason)) :
    (text = pattern.lo ∧ PatternFault pattern.lo reason) ∨
      (IsPatternText pattern.lo ∧ pattern.hi = some text ∧ PatternFault text reason) := by
  have fault_of : ∀ {given : String},
      (HalfPattern.ofText given).mapError (given, ·) = .error (text, reason) →
        text = given ∧ PatternFault given reason := by
    intro given invalid
    obtain ⟨cause, wrong, same⟩ := (mapError_eq_error_iff _ _ _).mp invalid
    cases same
    exact ⟨rfl, patternFault_of_validate ((HalfPattern.ofText_eq_error_iff _ _).mp wrong)⟩
  unfold ofTexts at refused
  rcases (bind_eq_error_iff _ _ _).mp refused with low | ⟨low, valid, refused⟩
  · exact Or.inl (fault_of low)
  · have lo := (HalfPattern.exists_ofText_iff pattern.lo).mp
      ⟨low, (mapError_eq_ok_iff _ _ _).mp valid⟩
    cases wide : pattern.hi with
    | none =>
      rw [wide] at refused
      cases refused
    | some given =>
      rw [wide] at refused
      rcases (bind_eq_error_iff _ _ _).mp refused with high | ⟨_, _, done⟩
      · obtain ⟨rfl, invalid⟩ := fault_of high
        exact Or.inr ⟨lo, rfl, invalid⟩
      · cases done

end DecoderTables
