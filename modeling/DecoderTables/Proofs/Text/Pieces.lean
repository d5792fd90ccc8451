import DecoderTables.Text.Line
import Mathlib.Data.List.Basic

/-!
Pieces of a text between separators, and what its lines leave out. Lines do not tell CR LF from LF;
together with an empty line behind a line feed at the end they tell everything else.
-/

namespace DecoderTables.Text

/-- The last piece is what stands behind the last separator. -/
theorem exists_last_piece (separator : Char) (text : List Char) :
    ∃ before last, text.splitOn separator = before ++ [last] ∧ separator ∉ last ∧
      (before = [] ∧ text = last ∨ ∃ front, before = front.splitOn separator ∧
        text = front ++ separator :: last) := by
  by_cases inside : separator ∈ text.reverse
  · obtain ⟨last, front, split, plain⟩ := List.eq_append_cons_of_mem inside
    have same : text = front.reverse ++ separator :: last.reverse := by
      rw [← List.reverse_reverse text, split]
      simp
    have free : separator ∉ last.reverse := by simpa using plain
    refine ⟨front.reverse.splitOn separator, last.reverse, ?_, free, .inr ⟨_, rfl, same⟩⟩
    rw [same, List.splitOn_append_cons_self, List.splitOn_eq_singleton free]
  · rw [List.mem_reverse] at inside
    exact ⟨[], text, List.splitOn_eq_singleton inside, inside, .inl ⟨rfl, rfl⟩⟩

/-- No piece has a character at which the text was cut. -/
theorem eq_false_of_mem_splitOnP {stop : Char → Bool} {text piece : List Char}
    (member : piece ∈ text.splitOnP stop) : ∀ c ∈ piece, stop c = false := by
  induction text generalizing piece with
  | nil =>
    obtain rfl := List.mem_singleton.mp member
    exact fun c inside => absurd inside List.not_mem_nil
  | cons c text ih =>
    rw [List.splitOnP_cons_eq_if_modifyHead] at member
    split at member
    · rcases List.mem_cons.mp member with rfl | later
      · exact fun c inside => absurd inside List.not_mem_nil
      · exact ih later
    · next other =>
      obtain ⟨first, others, pieces⟩ :=
        List.exists_cons_of_ne_nil (List.splitOnP_ne_nil stop text)
      rw [pieces, List.modifyHead_cons] at member
      rcases List.mem_cons.mp member with rfl | later
      · rw [List.forall_mem_cons]
        exact ⟨by simpa using other, ih (pieces ▸ List.mem_cons_self)⟩
      · exact ih (pieces ▸ List.mem_cons_of_mem first later)

theorem not_mem_of_mem_splitOn {separator : Char} {text piece : List Char}
    (member : piece ∈ text.splitOn separator) : separator ∉ piece := by
  intro inside
  have other := eq_false_of_mem_splitOnP member separator inside
  rw [beq_self_eq_true] at other
  cases other

/-! Line ends. -/

/-- The text with LF in place of each CR LF. -/
def unixEnds : List Char → List Char
  | '\r' :: '\n' :: text => '\n' :: unixEnds text
  | c :: text => c :: unixEnds text
  | [] => []

theorem unixEnds_eq_nil_iff (text : List Char) : unixEnds text = [] ↔ text = [] := by
  fun_cases unixEnds text <;> simp

theorem unixEnds_append {left : List Char} (plain : left.getLast? ≠ some '\r') (right : List Char) :
    unixEnds (left ++ right) = unixEnds left ++ unixEnds right := by
  fun_induction unixEnds left with
  | case1 left ih =>
    rw [List.cons_append, List.cons_append, unixEnds, ih, List.cons_append]
    cases left with
    | nil => simp
    | cons c left => simpa using plain
  | case2 c left other ih =>
    have single : ∀ rest, c = '\r' → left ++ right = '\n' :: rest → False := by
      intro rest return_c feed
      cases left with
      | nil => exact plain (return_c ▸ rfl)
      | cons d left =>
        obtain ⟨rfl, _⟩ := List.cons.inj feed
        exact other left return_c rfl
    rw [List.cons_append, unixEnds, ih, List.cons_append]
    · cases left with
      | nil => simp
      | cons d left => simpa using plain
    · exact single
  | case3 => rfl

/-- Each piece loses its carriage return, except the last one. -/
def plainPieces (pieces : List (List Char)) : List (List Char) :=
  pieces.dropLast.map dropReturn ++ pieces.getLast?.toList

theorem plainPieces_cons (piece : List Char) {pieces : List (List Char)} (more : pieces ≠ []) :
    plainPieces (piece :: pieces) = dropReturn piece :: plainPieces pieces := by
  obtain ⟨next, pieces, rfl⟩ := List.exists_cons_of_ne_nil more
  rfl

theorem dropReturn_cons {c : Char} {line : List Char} (filled : line ≠ [] ∨ c ≠ '\r') :
    dropReturn (c :: line) = c :: dropReturn line := by
  cases line with
  | nil =>
    have other := filled.resolve_left (not_not_intro rfl)
    rw [dropReturn, if_neg]
    · rfl
    · simpa using other
  | cons d line =>
    unfold dropReturn
    rw [List.getLast?_cons_cons, List.dropLast_cons_cons]
    split
    · rfl
    · rfl

/-- A character joins the first piece. -/
theorem plainPieces_modifyHead (c : Char) (pieces : List (List Char))
    (filled : c ≠ '\r' ∨ pieces.head? ≠ some [] ∨ pieces = [[]]) :
    plainPieces (pieces.modifyHead (c :: ·)) = (plainPieces pieces).modifyHead (c :: ·) := by
  cases pieces with
  | nil => rfl
  | cons piece pieces =>
    cases pieces with
    | nil => rfl
    | cons next pieces =>
      have more := List.cons_ne_nil next pieces
      rw [List.modifyHead_cons, plainPieces_cons _ more, plainPieces_cons _ more,
        List.modifyHead_cons, dropReturn_cons]
      rcases filled with other | other | one
      · exact .inr other
      · exact .inl fun empty => other (empty ▸ rfl)
      · cases one

theorem splitOn_lineFeed (text : List Char) :
    ('\n' :: text).splitOn '\n' = [] :: text.splitOn '\n' := by
  rw [List.splitOn_cons_eq_if_modifyHead, if_pos (by rfl)]

theorem splitOn_cons_of_ne {c : Char} (other : c ≠ '\n') (text : List Char) :
    (c :: text).splitOn '\n' = (text.splitOn '\n').modifyHead (c :: ·) := by
  rw [List.splitOn_cons_eq_if_modifyHead, if_neg (by simpa using other)]

theorem head?_splitOn_of_ne {c : Char} (other : c ≠ '\n') (text : List Char) :
    ((c :: text).splitOn '\n').head? ≠ some [] := by
  rw [splitOn_cons_of_ne other]
  obtain ⟨piece, pieces, made⟩ := List.exists_cons_of_ne_nil (List.splitOn_ne_nil '\n' text)
  rw [made]
  simp

theorem splitOn_unixEnds (text : List Char) :
    (unixEnds text).splitOn '\n' = plainPieces (text.splitOn '\n') := by
  fun_induction unixEnds text with
  | case1 text ih =>
    have more := List.splitOn_ne_nil '\n' text
    rw [splitOn_lineFeed, ih, splitOn_cons_of_ne (by decide), splitOn_lineFeed,
      List.modifyHead_cons, plainPieces_cons _ more]
    rfl
  | case2 c text other ih =>
    by_cases feed : c = '\n'
    · rw [feed, splitOn_lineFeed, splitOn_lineFeed, ih,
        plainPieces_cons _ (List.splitOn_ne_nil '\n' text)]
      rfl
    · rw [splitOn_cons_of_ne feed, splitOn_cons_of_ne feed, ih, plainPieces_modifyHead]
      by_cases plain : c = '\r'
      · right
        cases text with
        | nil => exact .inr rfl
        | cons d text =>
          have next : d ≠ '\n' := fun same => other text plain (same ▸ rfl)
          exact .inl (head?_splitOn_of_ne next text)
      · exact .inl plain
  | case3 => rfl

/-! Lines. -/

/-- The lines with an empty one behind a line feed at the end. -/
def allLines (text : List Char) : List (List Char) :=
  lines text ++ if endsWithLineFeed text then [[]] else []

/-- A line feed stands at the end of a text if the last piece is empty. -/
theorem endsWithLineFeed_eq_isEmpty {text before last : List Char}
    (split : text = before ++ '\n' :: last) (free : '\n' ∉ last) :
    endsWithLineFeed text = last.isEmpty := by
  rw [endsWithLineFeed, split, List.getLast?_append_cons]
  cases last with
  | nil => rfl
  | cons c last =>
    rw [List.getLast?_cons_cons, List.isEmpty_cons, beq_eq_false_iff_ne]
    exact fun ends => free (List.mem_of_getLast? ends)

theorem allLines_eq {text : List Char} (filled : text ≠ []) :
    allLines text = (unixEnds text).splitOn '\n' := by
  rw [splitOn_unixEnds, allLines, lines, plainPieces]
  obtain ⟨before, last, pieces, free, ⟨rfl, rfl⟩ | ⟨front, _, split⟩⟩ :=
    exists_last_piece '\n' text
  · have ends : endsWithLineFeed text = false := by
      rw [endsWithLineFeed, beq_eq_false_iff_ne]
      exact fun ends => free (List.mem_of_getLast? ends)
    rw [pieces, ends]
    simp [filled]
  · rw [pieces, endsWithLineFeed_eq_isEmpty split free]
    cases last <;> simp

/-- Texts have the same lines exactly if they are the same after CR LF has become LF. -/
theorem allLines_eq_iff (left right : List Char) :
    allLines left = allLines right ↔ unixEnds left = unixEnds right := by
  have whole : ∀ text, ['\n'].intercalate (allLines text) = unixEnds text := by
    intro text
    by_cases filled : text = []
    · rw [filled]
      rfl
    · rw [allLines_eq filled, List.intercalate_splitOn]
  apply Iff.intro
  · intro same
    rw [← whole left, ← whole right, same]
  · intro same
    by_cases filled : left = []
    · rw [filled, unixEnds, eq_comm, unixEnds_eq_nil_iff] at same
      rw [filled, same]
    · have other : right ≠ [] := by
        rwa [ne_eq, ← unixEnds_eq_nil_iff, ← same, unixEnds_eq_nil_iff]
      rw [allLines_eq filled, allLines_eq other, same]

theorem not_mem_of_mem_allLines {text line : List Char} (member : line ∈ allLines text) :
    '\n' ∉ line := by
  rw [allLines, lines, List.mem_append, List.mem_append, List.mem_map, List.mem_filter] at member
  rcases member with (⟨piece, listed, rfl⟩ | ⟨last, _⟩) | ends
  · have free := not_mem_of_mem_splitOn (List.dropLast_subset _ listed)
    unfold dropReturn
    split
    · exact fun inside => free (List.dropLast_subset _ inside)
    · exact free
  · exact not_mem_of_mem_splitOn (List.mem_of_getLast? (Option.mem_toList.mp last))
  · split at ends
    · rw [List.mem_singleton.mp ends]
      exact List.not_mem_nil
    · exact absurd ends List.not_mem_nil

theorem lines_append_lineFeed {line : List Char} (free : '\n' ∉ line) (text : List Char) :
    lines (line ++ '\n' :: text) = dropReturn line :: lines text := by
  obtain ⟨piece, pieces, made⟩ := List.exists_cons_of_ne_nil (List.splitOn_ne_nil '\n' text)
  rw [lines, lines, List.splitOn_append_cons_self, List.splitOn_eq_singleton free, made]
  rfl

/-- Lines that have been ended are the lines of the text. -/
theorem lines_flatMap_lineFeed {ended : List (List Char)}
    (plain : ∀ line ∈ ended, '\n' ∉ line ∧ line.getLast? ≠ some '\r') :
    lines (ended.flatMap (· ++ ['\n'])) = ended := by
  induction ended with
  | nil => rfl
  | cons line ended ih =>
    obtain ⟨⟨free, other⟩, later⟩ := List.forall_mem_cons.mp plain
    rw [List.flatMap_cons, List.append_assoc, List.singleton_append, lines_append_lineFeed free,
      ih later, dropReturn, if_neg other]

/-- What the line feeds of a text end, with their carriage returns. -/
def endedLines (text : List Char) : List (List Char) :=
  (text.splitOn '\n').dropLast

theorem endedLines_append_lineFeed {line : List Char} (free : '\n' ∉ line) (text : List Char) :
    endedLines (line ++ '\n' :: text) = line :: endedLines text := by
  obtain ⟨piece, pieces, made⟩ := List.exists_cons_of_ne_nil (List.splitOn_ne_nil '\n' text)
  rw [endedLines, endedLines, List.splitOn_append_cons_self, List.splitOn_eq_singleton free, made]
  rfl

theorem endedLines_flatMap_lineFeed {ended : List (List Char)}
    (plain : ∀ line ∈ ended, '\n' ∉ line) : endedLines (ended.flatMap (· ++ ['\n'])) = ended := by
  induction ended with
  | nil => rfl
  | cons line ended ih =>
    obtain ⟨free, later⟩ := List.forall_mem_cons.mp plain
    rw [List.flatMap_cons, List.append_assoc, List.singleton_append,
      endedLines_append_lineFeed free, ih later]

theorem endsWithLineFeed_unixEnds (text : List Char) :
    endsWithLineFeed (unixEnds text) = endsWithLineFeed text := by
  have last : (unixEnds text).getLast? = text.getLast? := by
    fun_induction unixEnds text with
    | case1 text ih => rw [List.getLast?_cons, ih, List.getLast?_cons_cons, List.getLast?_cons]
    | case2 c text _ ih => rw [List.getLast?_cons, ih, List.getLast?_cons]
    | case3 => rfl
  rw [endsWithLineFeed, last]
  rfl

theorem lines_eq_of_unixEnds_eq {left right : List Char} (same : unixEnds left = unixEnds right) :
    lines left = lines right ∧ endsWithLineFeed left = endsWithLineFeed right := by
  have ends : endsWithLineFeed left = endsWithLineFeed right := by
    rw [← endsWithLineFeed_unixEnds, same, endsWithLineFeed_unixEnds]
  have all := (allLines_eq_iff left right).mpr same
  rw [allLines, allLines, ends] at all
  exact ⟨List.append_cancel_right all, ends⟩

end DecoderTables.Text
