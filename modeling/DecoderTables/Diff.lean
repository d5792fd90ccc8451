import DecoderTables.Text.Line

/-!
Line differences of two texts. Common lines at the start and at the end are kept; between them a
longest common part is kept, and the walk along its table starts at the end.
-/

namespace DecoderTables

/-- A line of the left text only, of both texts, or of the right text only. -/
inductive Change where
  | left (line : String)
  | both (line : String)
  | right (line : String)
deriving DecidableEq

namespace Diff

/-- The common first lines, and what follows them on each side. -/
def splitCommon : List String → List String → List String × List String × List String
  | x :: xs, y :: ys =>
      if x = y then
        let (common, left, right) := splitCommon xs ys
        (x :: common, left, right)
      else ([], x :: xs, y :: ys)
  | xs, ys => ([], xs, ys)

/-- The row of the table for `x` before a row's lines: at each tail of `ys`, the length of the
longest common part. -/
def nextRow (x : String) : List String → List Nat → List Nat
  | y :: ys, above :: row =>
      let rest := nextRow x ys row
      (if x = y then row.headD 0 + 1 else max above (rest.headD 0)) :: rest
  | _, _ => [0]

/-- A row for each tail of `xs`, from the longest to the empty one. -/
def rows (xs ys : List String) : List (List Nat) :=
  match xs with
  | [] => [List.replicate (ys.length + 1) 0]
  | x :: xs =>
      let below := rows xs ys
      nextRow x ys (below.headD []) :: below

def cell (table : List (List Nat)) (row column : Nat) : Nat :=
  ((table[row]?.getD [])[column]?).getD 0

/-- Walks from the ends of two texts, given as reversed lists, to their starts. A line of the
right is taken first where that loses nothing, then a line of the left. -/
def walk (xs ys : List String) (table : List (List Nat)) (after : List Change) : List Change :=
  match xs, ys with
  | [], [] => after
  | [], y :: ys => walk [] ys table (.right y :: after)
  | x :: xs, [] => walk xs [] table (.left x :: after)
  | x :: xs, y :: ys =>
      if cell table 0 0 = cell table 0 1 then
        walk (x :: xs) ys (table.map List.tail) (.right y :: after)
      else if cell table 0 0 = cell table 1 0 then
        walk xs (y :: ys) table.tail (.left x :: after)
      else walk xs ys (table.tail.map List.tail) (.both x :: after)
termination_by xs.length + ys.length

def ofLists (left right : List String) : List Change :=
  let (first, left, right) := splitCommon left right
  let (last, left, right) := splitCommon left.reverse right.reverse
  first.map .both ++ walk left right (rows left right) [] ++ last.reverse.map .both

/-- The empty line after a line feed at the end of a text. -/
def ending (left right : List Char) : List Change :=
  match Text.endsWithLineFeed left, Text.endsWithLineFeed right with
  | true, true => [.both ""]
  | true, false => [.left ""]
  | false, true => [.right ""]
  | false, false => []

def ofTexts (left right : String) : List Change :=
  let linesOf (text : String) := (Text.lines text.toList).map String.ofList
  ofLists (linesOf left) (linesOf right) ++ ending left.toList right.toList

end Diff

end DecoderTables
