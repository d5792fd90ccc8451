import DecoderTables.Golden.Difference
import DecoderTables.Proofs.Text.Words

/-!
The lines of a numbered display, read back. What is shown of a line has a character for each
character of the line; a mark stands for each tab and for each space at the end.
-/

namespace DecoderTables.Golden
open Text

/-- A text as it is shown for a line. A space with nothing but white space behind it is at the end
of the line. -/
structure Shows (line shown : List Char) : Prop where
  length_eq : shown.length = line.length
  no_tab : '\t' ∉ shown
  char_eq : ∀ before c after, line = before ++ c :: after → shown[before.length]? =
    some (if c = '\t' then '→' else if c = ' ' ∧ after.all isBlank then '•' else c)

theorem visibleTab_ne (c : Char) : visibleTab c ≠ '\t' := by
  unfold visibleTab
  split
  · decide
  · next other => exact other

theorem visibleBlank_ne (c : Char) : visibleBlank c ≠ '\t' := by
  unfold visibleBlank
  split
  · decide
  · exact visibleTab_ne c

theorem eq_lineFeed_of_visibleTab {c : Char} (shown : visibleTab c = '\n') : c = '\n' := by
  unfold visibleTab at shown
  split at shown
  · cases shown
  · exact shown

theorem eq_lineFeed_of_visibleBlank {c : Char} (shown : visibleBlank c = '\n') : c = '\n' := by
  unfold visibleBlank at shown
  split at shown
  · cases shown
  · exact eq_lineFeed_of_visibleTab shown

/-- The marks for spaces begin where the white space at the end does. -/
theorem exists_visible (line : String) :
    ∃ front last, line.toList = front ++ last ∧ AllBlank last ∧
      (∀ c ∈ front.getLast?, isBlank c = false) ∧
      (visible line).toList = front.map visibleTab ++ last.map visibleBlank := by
  obtain ⟨last, blank, whole⟩ := exists_trimEnd_append line.toList
  refine ⟨trimEnd line.toList, last, whole, blank, fun c => plain_of_mem_getLast?_trimEnd, ?_⟩
  have behind : line.toList.drop (trimEnd line.toList).length = last := by
    conv_lhs => arg 2; rw [whole]
    exact List.drop_left
  unfold visible
  dsimp only
  rw [String.toList_ofList, behind]

/-- A character of a text that has two parts stands in one of them. -/
theorem append_eq_append_cons_cases {front last before after : List Char} {c : Char}
    (split : front ++ last = before ++ c :: after) :
    (∃ more, before = front ++ more ∧ last = more ++ c :: after) ∨
      ∃ more, front = before ++ c :: more ∧ after = more ++ last := by
  rcases List.append_eq_append_iff.mp split with given | ⟨more, same, rest⟩
  · exact .inl given
  · cases more with
    | nil => exact .inl ⟨[], by rw [same, List.append_nil, List.append_nil], rest.symm⟩
    | cons d more =>
      obtain ⟨rfl, tail⟩ := List.cons.inj rest
      exact .inr ⟨more, same, tail⟩

theorem shows_visible (line : String) : Shows line.toList (visible line).toList := by
  obtain ⟨front, last, whole, blank, plain, shown⟩ := exists_visible line
  rw [whole, shown]
  refine ⟨by simp, ?_, ?_⟩
  · rw [List.mem_append, List.mem_map, List.mem_map]
    rintro (⟨c, _, same⟩ | ⟨c, _, same⟩)
    · exact visibleTab_ne c same
    · exact visibleBlank_ne c same
  · intro before c after split
    rcases append_eq_append_cons_cases split with ⟨more, rfl, rfl⟩ | ⟨more, rfl, rfl⟩
    · have behind : after.all isBlank = true := List.all_eq_true.mpr fun d member =>
        blank d (List.mem_append_right _ (List.mem_cons_of_mem c member))
      have here : visibleBlank c =
          if c = '\t' then '→' else if c = ' ' ∧ after.all isBlank then '•' else c := by
        unfold visibleBlank visibleTab
        by_cases space : c = ' '
        · subst space
          simp [behind]
        · simp [space]
      rw [← here]
      simp
    · have inside : ¬(c = ' ' ∧ (more ++ last).all isBlank) := by
        rintro ⟨rfl, behind⟩
        rw [List.all_append, Bool.and_eq_true, List.all_eq_true] at behind
        have some_last := List.getLast?_eq_some_getLast (List.cons_ne_nil ' ' more)
        have other := plain _ (List.getLast?_append_cons .. ▸ some_last)
        rcases List.mem_cons.mp (List.getLast_mem (List.cons_ne_nil ' ' more)) with same | member
        · rw [same] at other
          cases other
        · rw [behind.1 _ member] at other
          cases other
      rw [if_neg inside]
      simp [visibleTab]

/-- A line of a display: its number, its mark and what it shows. -/
structure Row where
  number : Nat
  mark : Char
  shown : List Char
deriving DecidableEq

/-- Reads what stands behind the number of a line. A sign stands at its end. -/
def Row.behind? (number : Nat) : List Char → Option Row
  | ' ' :: mark :: ' ' :: rest =>
      if rest.getLast? = some '↴' then some ⟨number, mark, rest.dropLast⟩ else none
  | _ => none

/-- Reads a line of a display. -/
def Row.read? (line : List Char) : Option Row :=
  let text := line.dropWhile (· == ' ')
  Row.behind? (Nat.ofDigitChars 10 (text.takeWhile (·.isDigit)) 0) (text.dropWhile (·.isDigit))

theorem isDigit_of_mem_toDigits {number : Nat} {c : Char} (member : c ∈ Nat.toDigits 10 number) :
    c.isDigit = true :=
  Nat.isDigit_of_mem_toDigits (by decide) (by decide) member

/-- The digits of a number end where something else stands. -/
theorem span_toDigits (number : Nat) {c : Char} (stop : c.isDigit = false) (rest : List Char) :
    (Nat.toDigits 10 number ++ c :: rest).takeWhile (·.isDigit) = Nat.toDigits 10 number ∧
      (Nat.toDigits 10 number ++ c :: rest).dropWhile (·.isDigit) = c :: rest := by
  have digits : ∀ d ∈ Nat.toDigits 10 number, d.isDigit = true := fun _ => isDigit_of_mem_toDigits
  rw [List.takeWhile_append_of_pos digits, List.dropWhile_append_of_pos digits,
    List.takeWhile_cons_of_neg (by simp [stop]), List.dropWhile_cons_of_neg (by simp [stop])]
  exact ⟨List.append_nil _, rfl⟩

/-- The spaces in front of a number do not count. -/
theorem dropWhile_space_toDigits (width number : Nat) (rest : List Char) :
    (List.replicate width ' ' ++ (Nat.toDigits 10 number ++ rest)).dropWhile (· == ' ') =
      Nat.toDigits 10 number ++ rest := by
  rw [List.dropWhile_append_of_pos (by simp)]
  obtain ⟨c, digits, same⟩ :=
    List.exists_cons_of_ne_nil (Nat.toDigits_ne_nil (b := 10) (n := number))
  have other : c ≠ ' ' := by
    rintro rfl
    have space := isDigit_of_mem_toDigits (same ▸ List.mem_cons_self)
    cases space
  rw [same, List.cons_append]
  exact List.dropWhile_cons_of_neg (by simpa using other)

theorem toList_numbered (number : UInt64) (mark line : String) :
    (numbered number mark line).toList =
      List.replicate (5 - (Nat.toDigits 10 number.toNat).length) ' ' ++
        (Nat.toDigits 10 number.toNat ++
          ' ' :: (mark.toList ++ ' ' :: ((visible line).toList ++ ['↴']))) := by
  simp [numbered, List.leftpad, Nat.repr_eq_ofList_toDigits]

theorem not_mem_visible {line : String} (free : '\n' ∉ line.toList) :
    '\n' ∉ (visible line).toList := by
  obtain ⟨front, last, whole, _, _, shown⟩ := exists_visible line
  rw [whole, List.mem_append, not_or] at free
  rw [shown, List.mem_append, List.mem_map, List.mem_map]
  rintro (⟨c, member, same⟩ | ⟨c, member, same⟩)
  · exact free.1 (eq_lineFeed_of_visibleTab same ▸ member)
  · exact free.2 (eq_lineFeed_of_visibleBlank same ▸ member)

/-- A line of a display has one line end at most, which is the one behind it. -/
theorem plain_numbered (number : UInt64) {mark line : String} (sign : Char)
    (one : mark.toList = [sign]) (other : sign ≠ '\n') (free : '\n' ∉ line.toList) :
    '\n' ∉ (numbered number mark line).toList ∧
      (numbered number mark line).toList.getLast? ≠ some '\r' := by
  rw [toList_numbered, one]
  have digits : '\n' ∉ Nat.toDigits 10 number.toNat := fun member =>
    absurd (isDigit_of_mem_toDigits member) (by decide)
  have hidden := not_mem_visible free
  refine ⟨?_, ?_⟩
  · simp [digits, hidden, other.symm]
  · simp [List.getLast?_cons]

theorem read?_numbered (number : UInt64) {mark : String} (sign : Char)
    (one : mark.toList = [sign]) (line : String) :
    Row.read? (numbered number mark line).toList =
      some ⟨number.toNat, sign, (visible line).toList⟩ := by
  obtain ⟨digits, behind⟩ := span_toDigits number.toNat (c := ' ') rfl
    (sign :: ' ' :: ((visible line).toList ++ ['↴']))
  rw [toList_numbered, one, List.singleton_append, Row.read?, dropWhile_space_toDigits, digits,
    behind, Nat.ofDigitChars_ten_toDigits, Row.behind?, if_pos List.getLast?_concat,
    List.dropLast_concat]

end DecoderTables.Golden
