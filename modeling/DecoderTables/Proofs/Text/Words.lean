import DecoderTables.Proofs.Text.Pieces
import DecoderTables.Text.Blank

/-!
The words of a text, piece by piece. White space at either end has no part in them, and one
character of white space is as good as many.
-/

namespace DecoderTables.Text

def AllBlank (text : List Char) : Prop :=
  ∀ c ∈ text, isBlank c = true

/-- A text that is one word. -/
structure IsToken (text : List Char) : Prop where
  filled : text ≠ []
  plain : ∀ c ∈ text, isBlank c = false

/-! White space at the ends. -/

theorem allBlank_takeWhile (text : List Char) : AllBlank (text.takeWhile isBlank) :=
  fun c member => List.all_eq_true.mp List.all_takeWhile c member

theorem plain_of_mem_head?_trimStart {text : List Char} {c : Char}
    (first : c ∈ (trimStart text).head?) : isBlank c = false := by
  have head := List.head?_dropWhile_not isBlank text
  rw [← trimStart, Option.mem_def.mp first] at head
  exact head

theorem trimEnd_prefix (text : List Char) : trimEnd text <+: text := by
  rw [← List.reverse_suffix, trimEnd, List.reverse_reverse]
  exact List.dropWhile_suffix isBlank

theorem plain_of_mem_getLast?_trimEnd {text : List Char} {c : Char}
    (last : c ∈ (trimEnd text).getLast?) : isBlank c = false := by
  rw [trimEnd, List.getLast?_reverse] at last
  exact plain_of_mem_head?_trimStart last

/-- What is cut off from the end is white space. -/
theorem exists_trimEnd_append (text : List Char) :
    ∃ last, AllBlank last ∧ text = trimEnd text ++ last := by
  refine ⟨(text.reverse.takeWhile isBlank).reverse, ?_, ?_⟩
  · intro c member
    exact allBlank_takeWhile _ c (List.mem_reverse.mp member)
  · rw [trimEnd, ← List.reverse_append, List.takeWhile_append_dropWhile, List.reverse_reverse]

theorem exists_trim_append (text : List Char) :
    ∃ first last, AllBlank first ∧ AllBlank last ∧ text = first ++ (trim text ++ last) := by
  obtain ⟨last, blank, split⟩ := exists_trimEnd_append (trimStart text)
  refine ⟨text.takeWhile isBlank, last, allBlank_takeWhile text, blank, ?_⟩
  rw [trim, ← split, trimStart, List.takeWhile_append_dropWhile]

theorem plain_of_mem_head?_trim {text : List Char} {c : Char} (first : c ∈ (trim text).head?) :
    isBlank c = false := by
  obtain ⟨rest, split⟩ := trimEnd_prefix (trimStart text)
  apply plain_of_mem_head?_trimStart
  rw [← split, List.head?_append, ← trim, Option.mem_def.mp first]
  rfl

theorem plain_of_mem_getLast?_trim {text : List Char} {c : Char}
    (last : c ∈ (trim text).getLast?) : isBlank c = false :=
  plain_of_mem_getLast?_trimEnd last

theorem trim_eq_self {text : List Char} (first : ∀ c ∈ text.head?, isBlank c = false)
    (last : ∀ c ∈ text.getLast?, isBlank c = false) : trim text = text := by
  have kept : ∀ {text : List Char}, (∀ c ∈ text.head?, isBlank c = false) →
      text.dropWhile isBlank = text := by
    intro text plain
    cases text with
    | nil => rfl
    | cons c text => exact List.dropWhile_cons_of_neg (by simp [plain c rfl])
  rw [trim, trimStart, kept first, trimEnd, kept, List.reverse_reverse]
  rwa [List.head?_reverse]

theorem trim_eq_nil_iff (text : List Char) : trim text = [] ↔ AllBlank text := by
  obtain ⟨first, last, before, after, split⟩ := exists_trim_append text
  apply Iff.intro
  · intro empty
    rw [split, empty]
    exact List.forall_mem_append.mpr ⟨before, after⟩
  · intro blank
    rw [← List.head?_eq_none_iff, Option.eq_none_iff_forall_not_mem]
    intro c member
    have plain := plain_of_mem_head?_trim member
    have inside : c ∈ text := by
      rw [split]
      exact List.mem_append_right _ (List.mem_append_left _ (List.mem_of_mem_head? member))
    rw [blank c inside] at plain
    cases plain

/-! Words. -/

theorem words_nil : words [] = [] := rfl

theorem words_append_of_allBlank_left {left : List Char} (blank : AllBlank left)
    (right : List Char) : words (left ++ right) = words right := by
  induction left with
  | nil => rfl
  | cons c left ih =>
    obtain ⟨here, later⟩ := List.forall_mem_cons.mp blank
    exact (words_append_blank here [] (left ++ right)).trans (ih later)

theorem words_append_of_allBlank_right (left : List Char) {right : List Char}
    (blank : AllBlank right) : words (left ++ right) = words left := by
  cases right with
  | nil => rw [List.append_nil]
  | cons c right =>
    obtain ⟨here, later⟩ := List.forall_mem_cons.mp blank
    have none := words_append_of_allBlank_left later []
    rw [List.append_nil, words_nil] at none
    rw [words_append_blank here, none, List.append_nil]

theorem words_trim (text : List Char) : words (trim text) = words text := by
  obtain ⟨first, last, before, after, split⟩ := exists_trim_append text
  conv_rhs => rw [split]
  rw [words_append_of_allBlank_left before, words_append_of_allBlank_right _ after]

theorem IsToken.words_eq {token : List Char} (one : IsToken token) : words token = [token] := by
  rw [words, List.splitOnP_eq_singleton one.plain]
  exact List.filter_cons_of_pos (by simpa using one.filled)

/-- A word splits off at the white space behind it. -/
theorem IsToken.words_append {token gap : List Char} (one : IsToken token) (blank : AllBlank gap)
    {rest : List Char} (apart : gap = [] → rest = []) :
    words (token ++ (gap ++ rest)) = token :: words rest := by
  cases gap with
  | nil => rw [apart rfl, List.append_nil, List.append_nil, one.words_eq, words_nil]
  | cons c gap =>
    obtain ⟨here, later⟩ := List.forall_mem_cons.mp blank
    rw [List.cons_append, words_append_blank here, one.words_eq,
      words_append_of_allBlank_left later, List.singleton_append]

/-- What stands behind the first word of a text. -/
theorem exists_gap (rest : List Char) :
    ∃ gap, AllBlank gap ∧ (gap = [] → trimStart ((rest.dropWhile (!isBlank ·)).drop 1) = []) ∧
      rest = rest.takeWhile (!isBlank ·) ++
        (gap ++ trimStart ((rest.dropWhile (!isBlank ·)).drop 1)) := by
  cases behind : rest.dropWhile (!isBlank ·) with
  | nil =>
    have whole := List.takeWhile_append_dropWhile (p := (!isBlank ·)) (l := rest)
    rw [behind] at whole
    exact ⟨[], fun c member => absurd member List.not_mem_nil, fun _ => rfl, whole.symm⟩
  | cons c more =>
    have whole := List.takeWhile_append_dropWhile (p := (!isBlank ·)) (l := rest)
    have stop := List.head?_dropWhile_not (!isBlank ·) rest
    rw [behind] at whole stop
    refine ⟨c :: more.takeWhile isBlank, ?_, fun empty => absurd empty (List.cons_ne_nil _ _), ?_⟩
    · exact List.forall_mem_cons.mpr ⟨by simpa using stop, allBlank_takeWhile more⟩
    · rw [List.drop_one, List.tail_cons, trimStart, List.cons_append,
        List.takeWhile_append_dropWhile, whole]

theorem isToken_cons_takeWhile {c : Char} (plain : isBlank c = false) (rest : List Char) :
    IsToken (c :: rest.takeWhile (!isBlank ·)) where
  filled := List.cons_ne_nil _ _
  plain := List.forall_mem_cons.mpr
    ⟨plain, fun d member => by simpa using List.all_eq_true.mp List.all_takeWhile d member⟩

/-- A text that does not begin with white space has a first word. -/
theorem words_cons_ne_nil {c : Char} (plain : isBlank c = false) (rest : List Char) :
    words (c :: rest) ≠ [] := by
  obtain ⟨gap, blank, apart, whole⟩ := exists_gap rest
  have one := isToken_cons_takeWhile plain rest
  have split := congrArg (c :: ·) whole
  rw [split, ← List.cons_append, one.words_append blank apart]
  exact List.cons_ne_nil _ _

theorem isToken_of_mem_words {text word : List Char} (member : word ∈ words text) :
    IsToken word := by
  obtain ⟨piece, filled⟩ := List.mem_filter.mp member
  exact ⟨by simpa using filled, eq_false_of_mem_splitOnP piece⟩

theorem words_intercalate (pieces : List (List Char)) :
    words ([' '].intercalate pieces) = pieces.flatMap words := by
  induction pieces with
  | nil => rfl
  | cons piece pieces ih =>
    cases pieces with
    | nil => rw [List.intercalate_singleton, List.flatMap_singleton]
    | cons next pieces =>
      rw [List.intercalate_cons_cons, List.append_assoc, List.singleton_append,
        words_append_blank (by decide), ih, ← List.flatMap_cons]

end DecoderTables.Text
