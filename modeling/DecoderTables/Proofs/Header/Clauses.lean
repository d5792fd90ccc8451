import DecoderTables.Proofs.Header.Nesting
import DecoderTables.Proofs.Header.Scope
import DecoderTables.Proofs.Text.Pieces

/-!
The text of a header as the clauses of its namespace. A line that begins at the scope of the
namespace is the head of a clause, and the lines up to the next such line are inside of it.
-/

namespace DecoderTables.Header

/-! Lines of a text. -/

/-- The lines of a text, without what stands behind the last line feed. -/
def linesOf (text : String) : List String :=
  (Text.endedLines text.toList).map String.ofList

/-- Lines with a cut at each line feed inside of them. -/
def cut (lines : List String) : List String :=
  lines.flatMap fun line => (line.toList.splitOn '\n').map String.ofList

theorem cut_append (first second : List String) : cut (first ++ second) = cut first ++ cut second :=
  List.flatMap_append

theorem cut_of_free {lines : List String} (free : ∀ line ∈ lines, '\n' ∉ line.toList) :
    cut lines = lines := by
  induction lines with
  | nil => rfl
  | cons line lines ih =>
    obtain ⟨here, later⟩ := List.forall_mem_cons.mp free
    rw [cut, List.flatMap_cons, List.splitOn_eq_singleton here, List.map_singleton,
      String.ofList_toList]
    exact congrArg (line :: ·) (ih later)

theorem linesOf_textOf (lines : List String) : linesOf (textOf lines) = cut lines := by
  rw [linesOf, toList_textOf]
  induction lines with
  | nil => rfl
  | cons line lines ih =>
    rw [List.flatMap_cons, List.append_assoc, List.singleton_append, Text.endedLines,
      List.splitOn_append_cons_self,
      List.dropLast_append_of_ne_nil (List.splitOn_ne_nil _ _), List.map_append]
    exact congrArg (_ ++ ·) ih

theorem flatMap_splitOn (text : List Char) :
    (text.splitOn '\n').flatMap (· ++ ['\n']) = text ++ ['\n'] := by
  induction text with
  | nil => rfl
  | cons c text ih =>
    by_cases feed : c = '\n'
    · rw [feed, Text.splitOn_lineFeed, List.flatMap_cons, ih]
      rfl
    · rw [Text.splitOn_cons_of_ne feed]
      obtain ⟨piece, pieces, made⟩ := List.exists_cons_of_ne_nil (List.splitOn_ne_nil '\n' text)
      rw [made] at ih ⊢
      rw [List.modifyHead_cons, List.flatMap_cons, List.cons_append, List.cons_append,
        List.cons_append, ← ih]
      rfl

theorem textOf_cut (lines : List String) : textOf (cut lines) = textOf lines := by
  rw [String.ext_iff, toList_textOf, toList_textOf, cut, List.flatMap_assoc]
  congr 1
  funext line
  rw [List.flatMap_map]
  simp only [String.toList_ofList]
  exact flatMap_splitOn line.toList

theorem moves_cut_iff {first last : Nat} {lines : List String} :
    Moves first last (cut lines) ↔ Moves first last lines := by
  rw [Moves, textOf_cut]
  exact Iff.rfl

/-- A line of a namespace with the lines inside of what it opens, the closing one included. -/
structure Clause where
  head : String
  inside : List String

/-- The lines up to the next one at the scope of the namespace, and the clauses from there on. -/
structure Gathered where
  pending : List String
  clauses : List Clause

def Gathered.cons (outside : Bool) (line : String) (gathered : Gathered) : Gathered :=
  if outside then ⟨[], ⟨line, gathered.pending⟩ :: gathered.clauses⟩
  else ⟨line :: gathered.pending, gathered.clauses⟩

def gather (place : Option Place) : List String → Gathered
  | [] => ⟨[], []⟩
  | line :: lines =>
      (gather (place.bind (·.afterLine line)) lines).cons (place = some (.lineStart 0)) line

def clauses (lines : List String) : List Clause :=
  (gather (some (.lineStart 0)) lines).clauses

theorem gather_start (lines : List String) :
    gather (some (.lineStart 0)) lines = ⟨[], clauses lines⟩ := by
  cases lines with
  | nil => rfl
  | cons line lines => rfl

theorem gather_append {place : Option Place} {these : List String}
    (back : place.bind (·.after (textOf these).toList) = some (.lineStart 0))
    (those : List String) :
    gather place (these ++ those) =
      ⟨(gather place these).pending, (gather place these).clauses ++ clauses those⟩ := by
  induction these generalizing place with
  | nil =>
    obtain ⟨start, known, last⟩ := Option.bind_eq_some_iff.mp back
    obtain rfl := Option.some.inj last
    rw [known]
    exact gather_start those
  | cons line these ih =>
    simp only [Place.after_textOf_cons, ← Option.bind_assoc] at back
    rw [List.cons_append, gather, gather, ih back, Gathered.cons, Gathered.cons]
    split
    · rfl
    · rfl

theorem clauses_append {these : List String} (closed : Closed these) (those : List String) :
    clauses (these ++ those) = clauses these ++ clauses those := by
  have back : (some (Place.lineStart 0)).bind (·.after (textOf these).toList) =
      some (.lineStart 0) := closed
  exact congrArg Gathered.clauses (gather_append back those)

/-- Lines inside of braces belong to the clause that opens them. -/
theorem gather_deeper {place behind : Place} {inner : List String}
    (moves : place.after (textOf inner).toList = some behind) (rest : List String) :
    gather (some place.deeper) (inner ++ rest) =
      ⟨inner ++ (gather (some behind.deeper) rest).pending,
        (gather (some behind.deeper) rest).clauses⟩ := by
  induction inner generalizing place with
  | nil =>
    obtain rfl := Option.some.inj moves
    rfl
  | cons line inner ih =>
    rw [Place.after_textOf_cons] at moves
    obtain ⟨between, step, later⟩ := Option.bind_eq_some_iff.mp moves
    have inside : some place.deeper ≠ some (Place.lineStart 0) := by
      intro same
      cases congrArg Place.depth (Option.some.inj same)
    rw [List.cons_append, gather, Option.bind_some, Place.afterLine, Place.after_deeper step,
      ih later, decide_eq_false inside]
    rfl

theorem clauses_cut_append {these : List String} (closed : Closed these) (those : List String) :
    clauses (cut (these ++ those)) = clauses (cut these) ++ clauses (cut those) := by
  rw [cut_append, clauses_append (moves_cut_iff.mpr closed)]

theorem clauses_cut_cons_empty (lines : List String) :
    clauses (cut ("" :: lines)) = ⟨"", []⟩ :: clauses (cut lines) := by
  have blank : Closed [""] := by decide
  exact clauses_cut_append blank lines

/-- A line by itself is a clause with nothing inside. -/
theorem clauses_singleton (line : String) : clauses [line] = [⟨line, []⟩] := rfl

theorem clauses_cons {line : String} (closed : Closed [line]) (lines : List String) :
    clauses (line :: lines) = ⟨line, []⟩ :: clauses lines :=
  clauses_append closed lines

theorem clauses_cut_of_isFlat {lines : List String} (flat : ∀ line ∈ lines, IsFlat line) :
    clauses (cut lines) = lines.map fun line => ⟨line, []⟩ := by
  rw [cut_of_free fun line member => (flat line member).not_mem]
  induction lines with
  | nil => rfl
  | cons line lines ih =>
    obtain ⟨here, later⟩ := List.forall_mem_cons.mp flat
    rw [clauses_cons here.closed, ih later, List.map_cons]

theorem clauses_cut_flatMap {α : Type} (render : α → List String) {items : List α}
    (closed : ∀ item ∈ items, Closed (render item)) :
    clauses (cut (items.flatMap render)) =
      items.flatMap fun item => clauses (cut (render item)) := by
  induction items with
  | nil => rfl
  | cons item items ih =>
    obtain ⟨here, later⟩ := List.forall_mem_cons.mp closed
    rw [List.flatMap_cons, List.flatMap_cons, clauses_cut_append here, ih later]

theorem clauses_block {head closing : String} {inner : List String} (opens : Moves 0 1 [head])
    (closed : Closed inner) :
    clauses (head :: (inner ++ [closing])) = [⟨head, inner ++ [closing]⟩] := by
  have step := moves_singleton.mp opens
  have outside : some (Place.lineStart 0).deeper ≠ some (Place.lineStart 0) := by decide
  rw [clauses, gather, Option.bind_some, step]
  refine (congrArg (fun gathered => (Gathered.cons _ head gathered).clauses)
    (gather_deeper closed [closing])).trans ?_
  rw [gather, decide_eq_false outside]
  rfl

/-! The namespace of a header. -/

def namespaceForm : Form := ⟨"namespace ", " \x7b"⟩

/-- The lines of a header behind the line that opens its namespace. -/
def namespaceLines (text : String) : List String :=
  ((linesOf text).dropWhile (namespaceForm.read? · = none)).drop 1

def clausesOf (text : String) : List Clause :=
  clauses (namespaceLines text)

/-- The lines of a header at the scope of its namespace. -/
def scopeLines (text : String) : List String :=
  (clausesOf text).map (·.head)

/-- The lines between the first head that reads as a name and the brace that closes it. -/
def blockOf (read : String → Option String) (name : String) (text : String) : List String :=
  match (clausesOf text).find? (read ·.head = some name) with
  | some clause => clause.inside.dropLast
  | none => []

/-- The lines between the head of a function and the brace that closes it. -/
def functionBody (name : String) (text : String) : List String :=
  blockOf declared? name text

/-- The names that a header declares in its namespace, in the order of the text. -/
def definedNames (text : String) : List String :=
  declaredNames (scopeLines text)

/-- The names that are declared before a name. -/
def definedBefore (name : String) (text : String) : List String :=
  (definedNames text).takeWhile (· ≠ name)

theorem read?_namespace (scope : String) :
    namespaceForm.read? ("namespace " ++ scope ++ " \x7b") = some scope := by
  rw [String.append_assoc]
  exact read?_append namespaceForm scope

theorem namespaceLines_textOf {before : List String} {scope : String}
    (outside : ∀ line ∈ before, '\n' ∉ line.toList ∧ namespaceForm.read? line = none)
    (free : '\n' ∉ scope.toList) (lines : List String) :
    namespaceLines (textOf (before ++ ("namespace " ++ scope ++ " \x7b") :: lines)) =
      cut lines := by
  have opening : '\n' ∉ ("namespace " ++ scope ++ " \x7b").toList := by
    simpa using free
  have skipped : ∀ line ∈ before, decide (namespaceForm.read? line = none) = true :=
    fun line member => decide_eq_true (outside line member).2
  rw [namespaceLines, linesOf_textOf, cut_append, ← List.singleton_append, cut_append,
    cut_of_free fun line member => (outside line member).1,
    cut_of_free (List.forall_mem_singleton.mpr opening),
    List.dropWhile_append_of_pos skipped, List.singleton_append,
    List.dropWhile_cons_of_neg (by simp [read?_namespace]), List.drop_one, List.tail_cons]

/-- Where no two heads read as the same name, a block is found by its name. -/
theorem blockOf_of_mem {read : String → Option String} {text name head closing : String}
    {inner : List String} (distinct : ((scopeLines text).filterMap read).Nodup)
    (member : ⟨head, inner ++ [closing]⟩ ∈ clausesOf text) (reads : read head = some name) :
    blockOf read name text = inner := by
  obtain ⟨before, after, split⟩ := List.append_of_mem member
  rw [scopeLines, split, List.map_append, List.map_cons, List.filterMap_append,
    List.filterMap_cons_some reads] at distinct
  have others : ∀ clause ∈ before, ¬decide (read clause.head = some name) = true := by
    intro clause early same
    have known : name ∈ (before.map (·.head)).filterMap read :=
      List.mem_filterMap.mpr ⟨clause.head, List.mem_map_of_mem early, of_decide_eq_true same⟩
    exact (List.nodup_append.mp distinct).2.2 name known name List.mem_cons_self rfl
  rw [blockOf, split, List.find?_append, List.find?_eq_none.mpr others, Option.none_or,
    List.find?_cons_of_pos (by simp [reads])]
  exact List.dropLast_concat

theorem definedBefore_of_split {text name : String} {before after : List String}
    (split : definedNames text = before ++ name :: after) (fresh : name ∉ before) :
    definedBefore name text = before := by
  have others : ∀ other ∈ before, decide (other ≠ name) = true :=
    fun other member => decide_eq_true fun same => fresh (same ▸ member)
  rw [definedBefore, split, List.takeWhile_append_of_pos others,
    List.takeWhile_cons_of_neg (by simp), List.append_nil]

end DecoderTables.Header
