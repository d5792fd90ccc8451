import DecoderTables.Diff
import DecoderTables.Proofs.Text.Pieces
import Mathlib.Data.List.Infix

/-!
A difference shows both texts. The lines that it keeps or takes away are the lines of the left
text, those that it keeps or adds are the lines of the right text. A line is kept only where both
texts have it, since the walk follows a table of the lengths of longest common parts.
-/

namespace DecoderTables

/-- The line of the left text, if there is one. -/
def Change.left? : Change → Option String
  | .left line | .both line => some line
  | .right _ => none

/-- The line of the right text, if there is one. -/
def Change.right? : Change → Option String
  | .right line | .both line => some line
  | .left _ => none

/-- The line is one of both texts. -/
def Change.isBoth : Change → Bool
  | .both _ => true
  | _ => false

namespace Diff

/-! The table. -/

/-- The length of a longest common part. -/
def commonLength : List String → List String → Nat
  | [], _ => 0
  | _, [] => 0
  | x :: xs, y :: ys =>
      if x = y then commonLength xs ys + 1
      else max (commonLength xs (y :: ys)) (commonLength (x :: xs) ys)

theorem nextRow_eq (x : String) (xs ys : List String) :
    nextRow x ys (ys.tails.map (commonLength xs)) = ys.tails.map (commonLength (x :: xs)) := by
  induction ys with
  | nil => simp [nextRow, commonLength]
  | cons y ys ih =>
    have head : ∀ xs : List String,
        (ys.tails.map (commonLength xs)).headD 0 = commonLength xs ys := by
      intro xs
      cases ys <;> simp
    rw [List.tails_cons, List.map_cons, nextRow, ih, List.map_cons, head, head, commonLength]

/-- A row for each tail of the left lines, with a cell for each tail of the right lines. -/
theorem rows_eq (xs ys : List String) :
    rows xs ys = xs.tails.map fun rest => ys.tails.map (commonLength rest) := by
  induction xs with
  | nil =>
    have zero : commonLength [] = fun _ => 0 := by
      funext ys
      rw [commonLength]
    simp [rows, zero]
  | cons x xs ih =>
    have head : (rows xs ys).headD [] = ys.tails.map (commonLength xs) := by
      rw [ih]
      cases xs <;> simp
    rw [rows, head, nextRow_eq, ih, List.tails_cons, List.map_cons]

section Cells

variable (x y : String) (xs ys : List String)

theorem cell_rows :
    cell (rows (x :: xs) (y :: ys)) 0 0 = commonLength (x :: xs) (y :: ys) ∧
    cell (rows (x :: xs) (y :: ys)) 0 1 = commonLength (x :: xs) ys ∧
    cell (rows (x :: xs) (y :: ys)) 1 0 = commonLength xs (y :: ys) := by
  rw [rows_eq]
  refine ⟨?_, ?_, ?_⟩
  · simp [cell]
  · cases ys <;> simp [cell]
  · cases xs <;> simp [cell]

theorem rows_tail : (rows (x :: xs) ys).tail = rows xs ys := rfl

theorem rows_map_tail : (rows xs (y :: ys)).map List.tail = rows xs ys := by
  rw [rows_eq, rows_eq, List.map_map]
  rfl

/-- Where both steps that leave out a line lose something, the lines are the same. -/
theorem eq_of_cells
    (right : cell (rows (x :: xs) (y :: ys)) 0 0 ≠ cell (rows (x :: xs) (y :: ys)) 0 1)
    (left : cell (rows (x :: xs) (y :: ys)) 0 0 ≠ cell (rows (x :: xs) (y :: ys)) 1 0) : x = y := by
  obtain ⟨here, beside, below⟩ := cell_rows x y xs ys
  rw [here, beside] at right
  rw [here, below] at left
  by_contra differ
  rw [commonLength, if_neg differ] at left right
  omega

end Cells

/-! The walk. Each step is over a line of one side at least, so that what holds of the walk is shown
by an induction on the left lines, and on the right lines within it. -/

theorem filterMap_step {α : Type} (show? : Change → Option α) {change : Change} {item : α}
    (shown : show? change = some item) (items : List α) (after : List Change) :
    items.reverse ++ (change :: after).filterMap show? =
      (item :: items).reverse ++ after.filterMap show? := by
  rw [List.filterMap_cons_some shown, List.reverse_cons, List.append_assoc]
  rfl

theorem left_walk (xs ys : List String) (table : List (List Nat)) (after : List Change) :
    (walk xs ys table after).filterMap Change.left? =
      xs.reverse ++ after.filterMap Change.left? := by
  induction xs generalizing ys table after with
  | nil =>
    induction ys generalizing after with
    | nil =>
      rw [walk]
      rfl
    | cons y ys ih =>
      rw [walk, ih]
      rfl
  | cons x xs shorter =>
    induction ys generalizing table after with
    | nil => rw [walk, shorter, filterMap_step Change.left? rfl]
    | cons y ys ih =>
      rw [walk]
      split
      · rw [ih]
        rfl
      · split
        · rw [shorter, filterMap_step Change.left? rfl]
        · rw [shorter, filterMap_step Change.left? rfl]

/-- The table is needed as long as lines are left on both sides. -/
theorem right_walk (xs ys : List String) (table : List (List Nat)) (after : List Change)
    (filled : xs ≠ [] → ys ≠ [] → table = rows xs ys) :
    (walk xs ys table after).filterMap Change.right? =
      ys.reverse ++ after.filterMap Change.right? := by
  induction xs generalizing ys table after with
  | nil =>
    induction ys generalizing after with
    | nil =>
      rw [walk]
      rfl
    | cons y ys ih => rw [walk, ih _ (by simp), filterMap_step Change.right? rfl]
  | cons x xs shorter =>
    induction ys generalizing table after with
    | nil =>
      rw [walk, shorter _ _ _ (by simp)]
      rfl
    | cons y ys ih =>
      obtain rfl := filled (by simp) (by simp)
      rw [walk]
      split
      · rw [ih _ _ fun _ _ => rows_map_tail .., filterMap_step Change.right? rfl]
      · next right =>
        split
        · rw [shorter _ _ _ fun _ _ => rows_tail ..]
          rfl
        · next left =>
          have same := eq_of_cells x y xs ys right left
          rw [rows_tail, shorter _ _ _ fun _ _ => rows_map_tail .., same,
            filterMap_step Change.right? rfl]

/-! What the difference shows. -/

theorem splitCommon_append (xs ys : List String) :
    (splitCommon xs ys).1 ++ (splitCommon xs ys).2.1 = xs ∧
      (splitCommon xs ys).1 ++ (splitCommon xs ys).2.2 = ys := by
  induction xs generalizing ys with
  | nil => exact ⟨rfl, rfl⟩
  | cons x xs ih =>
    cases ys with
    | nil => exact ⟨rfl, rfl⟩
    | cons y ys =>
      rw [splitCommon]
      split
      · next same =>
        obtain ⟨left, right⟩ := ih ys
        exact ⟨congrArg (x :: ·) left, same ▸ congrArg (x :: ·) right⟩
      · exact ⟨rfl, rfl⟩

theorem splitCommon_self (lines : List String) : splitCommon lines lines = (lines, [], []) := by
  induction lines with
  | nil => rfl
  | cons line lines ih => rw [splitCommon, if_pos rfl, ih]

theorem ofLists_self (lines : List String) : ofLists lines lines = lines.map .both := by
  rw [ofLists, splitCommon_self]
  simp [splitCommon, walk]

/-- Both sides of the difference between common lines at the start and at the end. -/
theorem exists_ofLists (left right : List String) :
    ∃ first last xs ys, left = first ++ xs.reverse ++ last ∧ right = first ++ ys.reverse ++ last ∧
      ofLists left right =
        first.map .both ++ walk xs ys (rows xs ys) [] ++ last.map .both := by
  rcases front : splitCommon left right with ⟨first, lefts, rights⟩
  rcases back : splitCommon lefts.reverse rights.reverse with ⟨last, xs, ys⟩
  have starts := splitCommon_append left right
  have ends := splitCommon_append lefts.reverse rights.reverse
  rw [front] at starts
  rw [back] at ends
  have split : ∀ {lines rest : List String}, last ++ rest = lines.reverse →
      lines = rest.reverse ++ last.reverse := by
    intro lines rest same
    rw [← List.reverse_append, same, List.reverse_reverse]
  refine ⟨first, last.reverse, xs, ys, ?_, ?_, ?_⟩
  · rw [List.append_assoc, ← split ends.1, starts.1]
  · rw [List.append_assoc, ← split ends.2, starts.2]
  · rw [ofLists, front]
    dsimp only
    rw [back]

theorem filterMap_both (show? : Change → Option String) (shown : ∀ line, show? (.both line) = line)
    (lines : List String) : (lines.map Change.both).filterMap show? = lines := by
  rw [List.filterMap_map]
  have same : show? ∘ Change.both = some := by
    funext line
    exact shown line
  rw [same, List.filterMap_some]

theorem left_ofLists (left right : List String) :
    (ofLists left right).filterMap Change.left? = left := by
  obtain ⟨first, last, xs, ys, split, _, made⟩ := exists_ofLists left right
  have shown : ∀ line, (Change.both line).left? = line := fun _ => rfl
  rw [made, List.filterMap_append, List.filterMap_append, left_walk, filterMap_both _ shown,
    filterMap_both _ shown, split]
  simp

theorem right_ofLists (left right : List String) :
    (ofLists left right).filterMap Change.right? = right := by
  obtain ⟨first, last, xs, ys, _, split, made⟩ := exists_ofLists left right
  have shown : ∀ line, (Change.both line).right? = line := fun _ => rfl
  rw [made, List.filterMap_append, List.filterMap_append, right_walk _ _ _ _ fun _ _ => rfl,
    filterMap_both _ shown, filterMap_both _ shown, split]
  simp

/-! Differences of texts. -/

/-- The lines of a text, with an empty one behind a line feed at the end. -/
def linesOf (text : String) : List String :=
  (Text.allLines text.toList).map String.ofList

theorem linesOf_eq (text : String) :
    linesOf text = (Text.lines text.toList).map String.ofList ++
      if Text.endsWithLineFeed text.toList then [""] else [] := by
  rw [linesOf, Text.allLines, List.map_append]
  split
  · rfl
  · rfl

theorem not_mem_of_mem_linesOf {text line : String} (member : line ∈ linesOf text) :
    '\n' ∉ line.toList := by
  obtain ⟨chars, listed, rfl⟩ := List.mem_map.mp member
  rw [String.toList_ofList]
  exact Text.not_mem_of_mem_allLines listed

theorem linesOf_eq_iff (left right : String) :
    linesOf left = linesOf right ↔ Text.unixEnds left.toList = Text.unixEnds right.toList := by
  rw [← Text.allLines_eq_iff, linesOf, linesOf]
  exact (List.map_injective_iff.mpr fun _ _ => String.ofList_inj.mp).eq_iff

theorem left_ofTexts (left right : String) :
    (ofTexts left right).filterMap Change.left? = linesOf left := by
  rw [ofTexts, List.filterMap_append, left_ofLists, linesOf_eq, ending]
  cases Text.endsWithLineFeed left.toList <;> cases Text.endsWithLineFeed right.toList <;> rfl

theorem right_ofTexts (left right : String) :
    (ofTexts left right).filterMap Change.right? = linesOf right := by
  rw [ofTexts, List.filterMap_append, right_ofLists, linesOf_eq, ending]
  cases Text.endsWithLineFeed left.toList <;> cases Text.endsWithLineFeed right.toList <;> rfl

/-- All lines are of both texts exactly if the texts differ in nothing but CR LF for LF. -/
theorem all_isBoth_iff (left right : String) :
    (∀ change ∈ ofTexts left right, change.isBoth = true) ↔
      Text.unixEnds left.toList = Text.unixEnds right.toList := by
  apply Iff.intro
  · intro all
    rw [← linesOf_eq_iff, ← left_ofTexts left right, ← right_ofTexts left right]
    apply List.filterMap_congr
    intro change member
    have kept := all change member
    cases change with
    | both line => rfl
    | left line => cases kept
    | right line => cases kept
  · intro same
    obtain ⟨lines, ends⟩ := Text.lines_eq_of_unixEnds_eq same
    have keeps : ofTexts left right = (linesOf left).map .both := by
      rw [ofTexts, linesOf_eq, List.map_append, ending]
      dsimp only
      rw [lines, ends, ofLists_self]
      cases Text.endsWithLineFeed right.toList <;> rfl
    rw [keeps]
    intro change member
    obtain ⟨line, _, rfl⟩ := List.mem_map.mp member
    rfl

end Diff

end DecoderTables
