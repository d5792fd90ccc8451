import DecoderTables.Golden.Basic
import DecoderTables.Proofs.Text.Words

/-!
Where the expected result of a test starts. The tokens of a text end at the first place where a
token starts and the rest of the text begins with a prefix; without such a place all words of the
text are tokens.
-/

namespace DecoderTables.Golden
open Text

/-- The text begins with one of the prefixes. -/
def Announced (prefixes : List String) (text : List Char) : Prop :=
  ∃ start ∈ prefixes, start.toList <+: text

theorem startsExpectation_iff (prefixes : List String) (text : List Char) :
    startsExpectation prefixes text = true ↔ Announced prefixes text := by
  simp [startsExpectation, Announced]

/-- A token starts between two parts of a text: the second part does not begin with white space,
and the first part is empty or ends with white space. -/
structure TokenStart (before after : List Char) : Prop where
  begins : ∃ c ∈ after.head?, isBlank c = false
  behind : ∀ c ∈ before.getLast?, isBlank c = true

theorem TokenStart.ne_nil {before after : List Char} (start : TokenStart before after) :
    after ≠ [] := by
  rintro rfl
  obtain ⟨_, first, _⟩ := start.begins
  cases first

theorem TokenStart.of_append {first before after : List Char}
    (start : TokenStart (first ++ before) after) : TokenStart before after where
  begins := start.begins
  behind c last := by
    apply start.behind c
    rw [List.getLast?_append, Option.mem_def.mp last]
    rfl

/-- Inside of a word, nothing but its first character is the start of a token. -/
theorem TokenStart.eq_nil {token before after gap next : List Char} (one : IsToken token)
    (blank : AllBlank gap) (split : token ++ gap = before ++ after) (filled : after ≠ [])
    (start : TokenStart before (after ++ next)) : before = [] := by
  obtain ⟨c, first, plain⟩ := start.begins
  obtain ⟨d, after, rfl⟩ := List.exists_cons_of_ne_nil filled
  obtain rfl : d = c := Option.some.inj first
  rcases List.append_eq_append_iff.mp split with ⟨more, rfl, rest⟩ | ⟨more, rest, _⟩
  · have inside : d ∈ gap := by
      rw [rest]
      exact List.mem_append_right more List.mem_cons_self
    rw [blank d inside] at plain
    cases plain
  · rw [← List.getLast?_eq_none_iff, Option.eq_none_iff_forall_not_mem]
    intro e last
    have inside : e ∈ token := by
      rw [rest]
      exact List.mem_append_left more (List.mem_of_getLast? last)
    have other := start.behind e last
    rw [one.plain e inside] at other
    cases other

section Steps

variable {token gap next : List Char}

/-- The starts of tokens in a text that begins with a token. -/
theorem TokenStart.cases_token (one : IsToken token) (blank : AllBlank gap)
    {before after : List Char} (split : token ++ (gap ++ next) = before ++ after)
    (start : TokenStart before after) :
    before = [] ∨ ∃ later, before = token ++ (gap ++ later) ∧ next = later ++ after ∧
      TokenStart later after := by
  rw [← List.append_assoc] at split
  have behind : ∀ later, before = token ++ gap ++ later → next = later ++ after →
      ∃ later, before = token ++ (gap ++ later) ∧ next = later ++ after ∧
        TokenStart later after := by
    intro later same rest
    refine ⟨later, ?_, rest, TokenStart.of_append (same ▸ start)⟩
    rw [same, List.append_assoc]
  rcases List.append_eq_append_iff.mp split with ⟨later, same, rest⟩ | ⟨more, same, rest⟩
  · exact .inr (behind later same rest)
  · cases more with
    | nil =>
      refine .inr (behind [] ?_ rest.symm)
      rw [same, List.append_nil, List.append_nil]
    | cons c more => exact .inl ((rest ▸ start).eq_nil one blank same (List.cons_ne_nil c more))

theorem TokenStart.behind_token (blank : AllBlank gap) (apart : gap = [] → next = [])
    {later after : List Char} (split : next = later ++ after) (start : TokenStart later after) :
    TokenStart (token ++ (gap ++ later)) after where
  begins := start.begins
  behind c last := by
    rw [List.getLast?_append, List.getLast?_append] at last
    cases same : later.getLast? with
    | some d =>
      rw [same] at last
      exact start.behind c (same ▸ last)
    | none =>
      cases ends : gap.getLast? with
      | some d =>
        rw [same, ends] at last
        exact blank c (List.mem_of_getLast? (ends.trans last))
      | none =>
        have empty := apart (List.getLast?_eq_none_iff.mp ends)
        rw [split, List.append_eq_nil_iff] at empty
        exact absurd empty.2 start.ne_nil

end Steps

/-- The tokens are the words in front of the expected result, which starts as early as it can. If
nothing is expected, then no start of a token is left for it. -/
structure Splits (prefixes : List String) (text before : List Char) (tokens : List String)
    (expected : List Char) : Prop where
  text_eq : text = before ++ expected
  words_eq : words before = tokens.map String.toList
  starts : expected ≠ [] → TokenStart before expected ∧ Announced prefixes expected
  first : ∀ earlier rest, text = earlier ++ rest → TokenStart earlier rest →
    Announced prefixes rest → before.length ≤ earlier.length

theorem splits_nil (prefixes : List String) : Splits prefixes [] [] [] [] where
  text_eq := rfl
  words_eq := rfl
  starts filled := absurd rfl filled
  first _ _ _ _ _ := Nat.zero_le _

theorem splits_announced {prefixes : List String} {c : Char} {rest : List Char}
    (plain : isBlank c = false) (announced : Announced prefixes (c :: rest)) :
    Splits prefixes (c :: rest) [] [] (c :: rest) where
  text_eq := rfl
  words_eq := rfl
  starts _ := ⟨⟨⟨c, rfl, plain⟩, fun _ last => by cases last⟩, announced⟩
  first _ _ _ _ _ := Nat.zero_le _

theorem Splits.cons {prefixes tokens : List String}
    {text token gap next before expected : List Char} (one : IsToken token) (blank : AllBlank gap)
    (apart : gap = [] → next = []) (split : text = token ++ (gap ++ next))
    (other : ¬Announced prefixes text) (splits : Splits prefixes next before tokens expected) :
    Splits prefixes text (token ++ (gap ++ before)) (String.ofList token :: tokens) expected where
  text_eq := by
    rw [split, splits.text_eq]
    simp only [List.append_assoc]
  words_eq := by
    have none : gap = [] → before = [] := fun empty =>
      (List.append_eq_nil_iff.mp (splits.text_eq.symm.trans (apart empty))).1
    rw [one.words_append blank none, splits.words_eq, List.map_cons, String.toList_ofList]
  starts filled :=
    ⟨(splits.starts filled).1.behind_token blank apart splits.text_eq, (splits.starts filled).2⟩
  first earlier rest same start announced := by
    rcases start.cases_token one blank (split.symm.trans same) with rfl | ⟨later, rfl, tail, behind⟩
    · rw [List.nil_append] at same
      exact absurd (same ▸ announced) other
    · have bound := splits.first later rest tail behind announced
      simp only [List.length_append]
      omega

theorem exists_splits (prefixes : List String) (text : List Char)
    (plain : ∀ c ∈ text.head?, isBlank c = false) :
    ∃ before, Splits prefixes text before (splitInput prefixes text).1
      (splitInput prefixes text).2 := by
  fun_induction splitInput prefixes text with
  | case1 => exact ⟨[], splits_nil prefixes⟩
  | case2 c rest announced =>
    exact ⟨[], splits_announced (plain c rfl) ((startsExpectation_iff _ _).mp announced)⟩
  | case3 c rest other more expected made ih =>
    rw [made] at ih
    obtain ⟨before, splits⟩ := ih fun d first => plain_of_mem_head?_trimStart first
    obtain ⟨gap, blank, apart, whole⟩ := exists_gap rest
    have one := isToken_cons_takeWhile (plain c rfl) rest
    rw [startsExpectation_iff] at other
    exact ⟨_, splits.cons one blank apart (congrArg (c :: ·) whole) other⟩

end DecoderTables.Golden
