import DecoderTables.Proofs.Golden.Rows
import DecoderTables.Proofs.Text.Difference
import Mathlib.Algebra.Group.Nat.Defs

/-!
A numbered display shows both texts and says where their lines are. Lines of the expected text are
counted from the number of the first line; a line that only the result has is counted from the last
line before it that both texts have.
-/

namespace DecoderTables.Golden
open Text

namespace Row

/-- The row shows a line of the expected text. -/
def ofExpected (row : Row) : Bool :=
  row.mark == '-' || row.mark == '|'

/-- The row shows a line of the result. -/
def ofResult (row : Row) : Bool :=
  row.mark == '|' || row.mark == '+'

/-- The number of an added line behind some rows: one more than that of the last row with a line of
both texts, or the number of the first line, and one more for each line added since then. -/
def nextAdded (first : Nat) (rows : List Row) : Nat :=
  let start := match rows.reverse.find? (·.mark == '|') with
    | some kept => kept.number + 1
    | none => first
  start + (rows.reverse.takeWhile (!·.mark == '|')).countP (·.mark == '+')

theorem nextAdded_nil (first : Nat) : nextAdded first [] = first := rfl

theorem nextAdded_removed (first number : Nat) (rows : List Row) (shown : List Char) :
    nextAdded first (rows ++ [⟨number, '-', shown⟩]) = nextAdded first rows := by
  simp [nextAdded]

theorem nextAdded_kept (first number : Nat) (rows : List Row) (shown : List Char) :
    nextAdded first (rows ++ [⟨number, '|', shown⟩]) = number + 1 := by
  simp [nextAdded]

theorem nextAdded_added (first number : Nat) (rows : List Row) (shown : List Char) :
    nextAdded first (rows ++ [⟨number, '+', shown⟩]) = nextAdded first rows + 1 := by
  simp [nextAdded]
  omega

end Row

/-- The row with its number as a machine word shows it. -/
def Row.wrapped (row : Row) : Row :=
  { row with number := row.number % 2 ^ 64 }

theorem Row.wrapped_eq_self {row : Row} (fits : row.number < 2 ^ 64) : row.wrapped = row := by
  rw [wrapped, Nat.mod_eq_of_lt fits]

/-- The rows of a display, as the changes come. -/
def rowsOf (number added : Nat) : List Change → List Row
  | [] => []
  | .left line :: changes =>
      ⟨number, '-', (visible line).toList⟩ :: rowsOf (number + 1) added changes
  | .both line :: changes =>
      ⟨number, '|', (visible line).toList⟩ :: rowsOf (number + 1) (number + 1) changes
  | .right line :: changes =>
      ⟨added, '+', (visible line).toList⟩ :: rowsOf number (added + 1) changes

theorem read?_numbered_ofNat (number : Nat) {mark : String} (sign : Char)
    (one : mark.toList = [sign]) (line : String) :
    Row.read? (numbered (.ofNat number) mark line).toList =
      some (Row.wrapped ⟨number, sign, (visible line).toList⟩) := by
  rw [read?_numbered _ sign one, UInt64.toNat_ofNat', Row.wrapped]

/-- The counters of a display go on from zero behind the greatest number. -/
theorem read?_changeLines (number added : Nat) (changes : List Change) :
    ((changeLines (.ofNat number) (.ofNat added) changes).map String.toList).map Row.read? =
      (rowsOf number added changes).map (some ·.wrapped) := by
  have next : ∀ n : Nat, UInt64.ofNat n + 1 = .ofNat (n + 1) := fun n => (UInt64.ofNat_add n 1).symm
  fun_induction rowsOf number added changes with
  | case1 => rfl
  | case2 number added line changes ih =>
    rw [changeLines, List.map_cons, List.map_cons, next, ih, read?_numbered_ofNat number '-' rfl,
      List.map_cons]
  | case3 number added line changes ih =>
    rw [changeLines, List.map_cons, List.map_cons, next, ih, read?_numbered_ofNat number '|' rfl,
      List.map_cons]
  | case4 number added line changes ih =>
    rw [changeLines, List.map_cons, List.map_cons, next, ih, read?_numbered_ofNat added '+' rfl,
      List.map_cons]

theorem marks_rowsOf (number added : Nat) (changes : List Change) :
    ∀ row ∈ rowsOf number added changes, row.mark = '-' ∨ row.mark = '|' ∨ row.mark = '+' := by
  fun_induction rowsOf number added changes with
  | case1 => exact List.forall_mem_nil _
  | case2 number added line changes ih => exact List.forall_mem_cons.mpr ⟨.inl rfl, ih⟩
  | case3 number added line changes ih => exact List.forall_mem_cons.mpr ⟨.inr (.inl rfl), ih⟩
  | case4 number added line changes ih => exact List.forall_mem_cons.mpr ⟨.inr (.inr rfl), ih⟩

theorem numbers_rowsOf (number added : Nat) (changes : List Change) :
    ((rowsOf number added changes).filter Row.ofExpected).map (·.number) =
      List.range' number (changes.filterMap Change.left?).length := by
  fun_induction rowsOf number added changes with
  | case1 => rfl
  | case2 number added line changes ih =>
    simpa [Row.ofExpected, Change.left?, List.range'_succ] using ih
  | case3 number added line changes ih =>
    simpa [Row.ofExpected, Change.left?, List.range'_succ] using ih
  | case4 number added line changes ih =>
    rw [List.filterMap_cons_none rfl]
    simpa [Row.ofExpected] using ih

theorem expected_rowsOf (number added : Nat) (changes : List Change) :
    List.Forall₂ (fun line row => Shows line.toList row.shown)
      (changes.filterMap Change.left?) ((rowsOf number added changes).filter Row.ofExpected) := by
  fun_induction rowsOf number added changes with
  | case1 => exact .nil
  | case2 number added line changes ih =>
    simpa [Row.ofExpected, Change.left?] using ⟨shows_visible line, ih⟩
  | case3 number added line changes ih =>
    simpa [Row.ofExpected, Change.left?] using ⟨shows_visible line, ih⟩
  | case4 number added line changes ih =>
    rw [List.filterMap_cons_none rfl]
    simpa [Row.ofExpected] using ih

theorem result_rowsOf (number added : Nat) (changes : List Change) :
    List.Forall₂ (fun line row => Shows line.toList row.shown)
      (changes.filterMap Change.right?) ((rowsOf number added changes).filter Row.ofResult) := by
  fun_induction rowsOf number added changes with
  | case1 => exact .nil
  | case2 number added line changes ih =>
    rw [List.filterMap_cons_none rfl]
    simpa [Row.ofResult] using ih
  | case3 number added line changes ih =>
    simpa [Row.ofResult, Change.right?] using ⟨shows_visible line, ih⟩
  | case4 number added line changes ih =>
    simpa [Row.ofResult, Change.right?] using ⟨shows_visible line, ih⟩

/-- The rows that come behind others, whose number of the next added line is the counter. -/
theorem added_rowsOf {first number added : Nat} {shown : List Row}
    (counted : Row.nextAdded first shown = added) (changes : List Change)
    {before after : List Row} {row : Row}
    (split : rowsOf number added changes = before ++ row :: after) (plus : row.mark = '+') :
    row.number = Row.nextAdded first (shown ++ before) := by
  fun_induction rowsOf number added changes generalizing shown before with
  | case1 => simp at split
  | case2 number added line changes ih =>
    rcases List.cons_eq_append_iff.mp split with ⟨rfl, same⟩ | ⟨more, rfl, rest⟩
    · obtain ⟨rfl, _⟩ := List.cons.inj same
      cases plus
    · rw [List.append_cons]
      exact ih ((Row.nextAdded_removed ..).trans counted) rest
  | case3 number added line changes ih =>
    rcases List.cons_eq_append_iff.mp split with ⟨rfl, same⟩ | ⟨more, rfl, rest⟩
    · obtain ⟨rfl, _⟩ := List.cons.inj same
      cases plus
    · rw [List.append_cons]
      exact ih (Row.nextAdded_kept ..) rest
  | case4 number added line changes ih =>
    rcases List.cons_eq_append_iff.mp split with ⟨rfl, same⟩ | ⟨more, rfl, rest⟩
    · obtain ⟨rfl, _⟩ := List.cons.inj same
      rw [List.append_nil, counted]
    · rw [List.append_cons]
      exact ih ((Row.nextAdded_added ..).trans (congrArg (· + 1) counted)) rest

/-- The counters advance by at most one for each row. -/
theorem number_lt_of_mem_rowsOf {number added bound : Nat} {changes : List Change}
    (numbered : number + changes.length ≤ bound) (counted : added + changes.length ≤ bound) :
    ∀ row ∈ rowsOf number added changes, row.number < bound := by
  fun_induction rowsOf number added changes with
  | case1 => exact List.forall_mem_nil _
  | case2 number added line changes ih =>
    rw [List.length_cons] at numbered counted
    exact List.forall_mem_cons.mpr ⟨by dsimp only; omega, ih (by omega) (by omega)⟩
  | case3 number added line changes ih =>
    rw [List.length_cons] at numbered counted
    exact List.forall_mem_cons.mpr ⟨by dsimp only; omega, ih (by omega) (by omega)⟩
  | case4 number added line changes ih =>
    rw [List.length_cons] at numbered counted
    exact List.forall_mem_cons.mpr ⟨by dsimp only; omega, ih (by omega) (by omega)⟩

theorem length_rowsOf (number added : Nat) (changes : List Change) :
    (rowsOf number added changes).length = changes.length := by
  fun_induction rowsOf number added changes with
  | case1 => rfl
  | case2 number added line changes ih => exact congrArg (· + 1) ih
  | case3 number added line changes ih => exact congrArg (· + 1) ih
  | case4 number added line changes ih => exact congrArg (· + 1) ih

/-- What a numbered display of two texts has to show, given the number of the first line and the
lines of both texts. -/
structure Faithful (first : Nat) (expected result : List String) (rows : List Row) : Prop where
  mark_eq : ∀ row ∈ rows, row.mark = '-' ∨ row.mark = '|' ∨ row.mark = '+'
  shows_expected : List.Forall₂ (fun line row => Shows line.toList row.shown)
    expected (rows.filter Row.ofExpected)
  shows_result : List.Forall₂ (fun line row => Shows line.toList row.shown)
    result (rows.filter Row.ofResult)
  consecutive : (rows.filter Row.ofExpected).map (·.number) = List.range' first expected.length
  added_eq : ∀ before row after, rows = before ++ row :: after → row.mark = '+' →
    row.number = Row.nextAdded first before
  number_lt : ∀ row ∈ rows, row.number < first + rows.length

theorem faithful_rowsOf (first : Nat) (expected result : String) :
    Faithful first (Diff.linesOf expected) (Diff.linesOf result)
      (rowsOf first first (Diff.ofTexts expected result)) where
  mark_eq := marks_rowsOf first first _
  shows_expected := Diff.left_ofTexts expected result ▸ expected_rowsOf first first _
  shows_result := Diff.right_ofTexts expected result ▸ result_rowsOf first first _
  consecutive := Diff.left_ofTexts expected result ▸ numbers_rowsOf first first _
  added_eq _ _ _ := added_rowsOf (Row.nextAdded_nil first) _
  number_lt := number_lt_of_mem_rowsOf (by rw [length_rowsOf]) (by rw [length_rowsOf])

/-! The text of a display. -/

theorem plain_changeLines {number added : UInt64} {changes : List Change}
    (free : ∀ change ∈ changes, ∀ line, change.left? = some line ∨ change.right? = some line →
      '\n' ∉ line.toList) :
    ∀ line ∈ (changeLines number added changes).map String.toList,
      '\n' ∉ line ∧ line.getLast? ≠ some '\r' := by
  fun_induction changeLines number added changes with
  | case1 => exact List.forall_mem_nil _
  | case2 number added line changes ih =>
    obtain ⟨here, later⟩ := List.forall_mem_cons.mp free
    exact List.forall_mem_cons.mpr
      ⟨plain_numbered number '-' rfl (by decide) (here line (.inl rfl)), ih later⟩
  | case3 number added line changes ih =>
    obtain ⟨here, later⟩ := List.forall_mem_cons.mp free
    exact List.forall_mem_cons.mpr
      ⟨plain_numbered number '|' rfl (by decide) (here line (.inl rfl)), ih later⟩
  | case4 number added line changes ih =>
    obtain ⟨here, later⟩ := List.forall_mem_cons.mp free
    exact List.forall_mem_cons.mpr
      ⟨plain_numbered added '+' rfl (by decide) (here line (.inr rfl)), ih later⟩

theorem free_of_mem_ofTexts {expected result : String} :
    ∀ change ∈ Diff.ofTexts expected result, ∀ line,
      change.left? = some line ∨ change.right? = some line → '\n' ∉ line.toList := by
  rintro change member line (left | right)
  · have listed : line ∈ Diff.linesOf expected := by
      rw [← Diff.left_ofTexts expected result]
      exact List.mem_filterMap.mpr ⟨change, member, left⟩
    exact Diff.not_mem_of_mem_linesOf listed
  · have listed : line ∈ Diff.linesOf result := by
      rw [← Diff.right_ofTexts expected result]
      exact List.mem_filterMap.mpr ⟨change, member, right⟩
    exact Diff.not_mem_of_mem_linesOf listed

/-- The line above the body of a display. -/
def heading (file : String) : String :=
  if file.isEmpty then "" else "     --> " ++ file ++ "\n"

/-- The text below the heading. -/
def bodyOf (line : UInt64) (expected result : String) : String :=
  String.join ((changeLines (max line 1) (max line 1)
    (Diff.ofTexts expected result)).map (· ++ "\n"))

theorem difference_eq (file : String) (line : UInt64) (expected result : String) :
    difference file line expected result = heading file ++ bodyOf line expected result := by
  rw [difference, heading, bodyOf]
  split
  · rw [List.nil_append, String.empty_append]
  · rw [List.singleton_append, List.map_cons, String.join_cons]

theorem lines_bodyOf (line : UInt64) (expected result : String) :
    lines (bodyOf line expected result).toList =
      (changeLines (max line 1) (max line 1) (Diff.ofTexts expected result)).map String.toList := by
  rw [← lines_flatMap_lineFeed (plain_changeLines free_of_mem_ofTexts), bodyOf,
    String.toList_join, List.flatMap_map, List.flatMap_map]
  simp only [String.toList_append]
  rfl

theorem ofNat_max_one (line : UInt64) : UInt64.ofNat (max line.toNat 1) = max line 1 := by
  have least : line ≤ 1 ↔ line.toNat ≤ 1 := UInt64.le_iff_toNat_le
  rw [show max line 1 = if line ≤ 1 then 1 else line from rfl]
  split
  · next small =>
    rw [Nat.max_eq_right (least.mp small)]
    rfl
  · next large =>
    rw [Nat.max_eq_left (Nat.le_of_not_le (mt least.mpr large)), UInt64.ofNat_toNat]

theorem read?_lines_bodyOf (line : UInt64) (expected result : String) :
    (lines (bodyOf line expected result).toList).map Row.read? =
      (rowsOf (max line.toNat 1) (max line.toNat 1)
        (Diff.ofTexts expected result)).map (some ·.wrapped) := by
  rw [lines_bodyOf, ← ofNat_max_one, read?_changeLines]

end DecoderTables.Golden
