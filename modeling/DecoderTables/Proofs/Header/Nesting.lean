import DecoderTables.Proofs.Header.Token

/-!
How deep a place of a C++ text is nested. A scan over the characters tells code from comments and
literals and counts the braces of the code. It ends at what it cannot follow: a brace that closes
nothing, a literal that is cut off, a directive, a spliced line, a raw literal, and the spellings of
brackets without their characters.
-/

namespace DecoderTables.Header

inductive Mode where
  /-- Code, the character before, and whether it is a part of a number. -/
  | code (before : Char) (number : Bool)
  /-- A comment up to the end of the line, and whether a backslash would continue it there. -/
  | lineComment (spliced : Bool)
  /-- A comment up to the next `*/`, and whether the character before is an asterisk. -/
  | blockComment (star : Bool)
  /-- A literal up to its quote, and whether the character before escapes the next one. -/
  | literal (quote : Char) (escaped : Bool)
deriving DecidableEq

/-- A place in a text, with the number of braces that are open. -/
structure Place where
  mode : Mode
  depth : Nat
deriving DecidableEq

namespace Place

/-- The beginning of a line of code. -/
def lineStart (depth : Nat) : Place :=
  ⟨.code '\n' false, depth⟩

/-- The same place inside of one more pair of braces. -/
def deeper (place : Place) : Place :=
  ⟨place.mode, place.depth + 1⟩

/-- The number of open braces behind a character of the code. -/
def nested (depth : Nat) (c : Char) : Option Nat :=
  if c = '\x7b' then some (depth + 1)
  else if c = '\x7d' then
    match depth with
    | 0 => none
    | outer + 1 => some outer
  else some depth

/-- Whether a character goes on with a number or begins one. -/
def inNumber (before : Char) (number : Bool) (c : Char) : Bool :=
  isWordChar c && (number || c.isDigit && !isWordChar before)

-- in a number an apostrophe separates digits, and an R before a quote begins a raw literal
def nextInCode (before : Char) (number : Bool) (depth : Nat) (c : Char) : Option Place :=
  if before = '/' ∧ c = '/' then some ⟨.lineComment false, depth⟩
  else if before = '/' ∧ c = '*' then some ⟨.blockComment false, depth⟩
  else if c = '\x27' ∧ number = true then some ⟨.code c true, depth⟩
  else if c = '\x27' ∨ c = '"' ∧ before ≠ 'R' then some ⟨.literal c false, depth⟩
  else if c ∈ ['"', '#', '\\'] ∨ (before, c) ∈ [('<', '%'), ('%', '>'), ('%', ':')] ∨
      before = '\x27' ∧ number = true ∧ isWordChar c = false then
    none
  else (nested depth c).map (Place.mk (.code c (inNumber before number c)))

def next (place : Place) (c : Char) : Option Place :=
  match place.mode with
  | .code before number => nextInCode before number place.depth c
  | .lineComment spliced =>
      if c = '\n' ∧ spliced = false then some ⟨.code c false, place.depth⟩
      else if c = '\n' ∨ c = '\r' then none
      else some ⟨.lineComment (c = '\\' ∨ spliced = true ∧ c.isWhitespace = true), place.depth⟩
  | .blockComment star =>
      if star = true ∧ c = '/' then some ⟨.code ' ' false, place.depth⟩
      else if star = true ∧ c = '\\' then none
      else some ⟨.blockComment (c = '*'), place.depth⟩
  | .literal quote escaped =>
      if c = '\n' ∨ c = '\r' then none
      else if escaped = false ∧ c = quote then some ⟨.code c false, place.depth⟩
      else some ⟨.literal quote (escaped = false ∧ c = '\\'), place.depth⟩

/-- The place behind a text, if the scan comes that far. -/
def after (place : Place) (text : List Char) : Option Place :=
  text.foldlM next place

theorem after_append (place : Place) (first second : List Char) :
    place.after (first ++ second) = (place.after first).bind (·.after second) :=
  List.foldlM_append

/-! What can be followed at a place can be followed inside of more braces. -/

theorem nested_deeper {depth last : Nat} {c : Char} (step : nested depth c = some last) :
    nested (depth + 1) c = some (last + 1) := by
  unfold nested at step ⊢
  split_ifs at step ⊢ with opening closing
  · rw [Option.some.inj step]
  · cases depth with
    | zero => cases step
    | succ outer => rw [Option.some.inj step]
  · rw [Option.some.inj step]

theorem nextInCode_deeper {before : Char} {number : Bool} {depth : Nat} {c : Char} {place : Place}
    (step : nextInCode before number depth c = some place) :
    nextInCode before number (depth + 1) c = some place.deeper := by
  unfold nextInCode at step ⊢
  split_ifs at step ⊢ with line block separator literal strange
  · obtain rfl := Option.some.inj step
    rfl
  · obtain rfl := Option.some.inj step
    rfl
  · obtain rfl := Option.some.inj step
    rfl
  · obtain rfl := Option.some.inj step
    rfl
  · obtain ⟨last, nesting, rfl⟩ := Option.map_eq_some_iff.mp step
    exact Option.map_eq_some_iff.mpr ⟨last + 1, nested_deeper nesting, rfl⟩

theorem next_deeper {place behind : Place} {c : Char} (step : place.next c = some behind) :
    place.deeper.next c = some behind.deeper := by
  obtain ⟨mode, depth⟩ := place
  cases mode with
  | code before number => exact nextInCode_deeper step
  | _ =>
    simp only [next, deeper] at step ⊢
    grind

theorem after_deeper {place behind : Place} {text : List Char}
    (steps : place.after text = some behind) : place.deeper.after text = some behind.deeper := by
  induction text generalizing place with
  | nil =>
    obtain rfl := Option.some.inj steps
    rfl
  | cons c text ih =>
    obtain ⟨between, step, rest⟩ := Option.bind_eq_some_iff.mp steps
    exact Option.bind_eq_some_iff.mpr ⟨between.deeper, next_deeper step, ih rest⟩

end Place

/-- Lines that lead from a number of open braces to another. -/
def Moves (first last : Nat) (lines : List String) : Prop :=
  (Place.lineStart first).after (textOf lines).toList = some (.lineStart last)

instance (first last : Nat) (lines : List String) : Decidable (Moves first last lines) :=
  inferInstanceAs (Decidable (_ = _))

theorem toList_textOf (lines : List String) :
    (textOf lines).toList = lines.flatMap fun line => line.toList ++ ['\n'] := by
  induction lines with
  | nil => rfl
  | cons line lines ih =>
    rw [textOf, List.map_cons, String.join_cons, String.toList_append, String.toList_append]
    exact congrArg (_ ++ ·) ih

theorem textOf_append (first second : List String) :
    textOf (first ++ second) = textOf first ++ textOf second := by
  rw [String.ext_iff]
  simp [toList_textOf]

/-- Where the next line begins. -/
def Place.afterLine (place : Place) (line : String) : Option Place :=
  place.after (line.toList ++ ['\n'])

theorem Place.after_textOf_cons (place : Place) (line : String) (lines : List String) :
    place.after (textOf (line :: lines)).toList =
      (place.afterLine line).bind (·.after (textOf lines).toList) := by
  rw [toList_textOf, List.flatMap_cons, Place.after_append, ← toList_textOf]
  rfl

theorem moves_singleton {first last : Nat} {line : String} :
    Moves first last [line] ↔
      (Place.lineStart first).afterLine line = some (.lineStart last) := by
  rw [Moves, Place.after_textOf_cons]
  cases (Place.lineStart first).afterLine line with
  | none => exact Iff.rfl
  | some place => exact Iff.rfl

theorem moves_nil (depth : Nat) : Moves depth depth [] := rfl

theorem Moves.append {first middle last : Nat} {these those : List String}
    (before : Moves first middle these) (behind : Moves middle last those) :
    Moves first last (these ++ those) := by
  rw [Moves, textOf_append, String.toList_append, Place.after_append, before]
  exact behind

theorem Moves.deeper {first last : Nat} {lines : List String} (moves : Moves first last lines) :
    Moves (first + 1) (last + 1) lines :=
  Place.after_deeper moves

/-- Lines that close what they open, in this order and nothing else. -/
def Closed (lines : List String) : Prop :=
  Moves 0 0 lines

instance (lines : List String) : Decidable (Closed lines) :=
  inferInstanceAs (Decidable (Moves 0 0 lines))

example : Closed ["if (a) \x7b // isn't closed: \x7d", "  b = '\x7b';", "\x7d"] := by decide

example : ¬Closed ["\x7d", "\x7b"] := by decide

/-- A character that is no part of a comment or a literal and no directive. -/
def isPlain (c : Char) : Bool :=
  c ∉ ['"', '\x27', '/', '#', '\\', '%']

def isFlatChar (c : Char) : Bool :=
  isPlain c && c ∉ ['\x7b', '\x7d', '\n']

/-- A part of a line that does not change the place. -/
def IsFlat (text : String) : Prop :=
  ∀ c ∈ text.toList, isFlatChar c = true

instance (text : String) : Decidable (IsFlat text) :=
  decidable_of_iff (text.toList.all isFlatChar = true) List.all_eq_true

theorem isFlat_append_iff {first second : String} :
    IsFlat (first ++ second) ↔ IsFlat first ∧ IsFlat second := by
  rw [IsFlat, String.toList_append]
  exact List.forall_mem_append

theorem IsFlat.append {first second : String} (left : IsFlat first) (right : IsFlat second) :
    IsFlat (first ++ second) :=
  isFlat_append_iff.mpr ⟨left, right⟩

theorem IsFlat.not_mem {text : String} (flat : IsFlat text) : '\n' ∉ text.toList :=
  fun member => absurd (flat _ member) (by decide)

/-- A character of a name, where all characters outside of ASCII may stand in one. -/
def isNameChar (c : Char) : Bool :=
  isWordChar c || 128 ≤ c.toNat

theorem isFlatChar_of_isNameChar {c : Char} (name : isNameChar c = true) : isFlatChar c = true := by
  have others : (['"', '\x27', '/', '#', '\\', '%', '\x7b', '\x7d', '\n'].all
      fun other => !isNameChar other) = true := by decide
  have outside : c ∉ ['"', '\x27', '/', '#', '\\', '%', '\x7b', '\x7d', '\n'] := by
    intro member
    have none := List.all_eq_true.mp others c member
    simp [name] at none
  simp only [List.mem_cons, List.not_mem_nil, or_false, not_or] at outside
  simp [isFlatChar, isPlain, outside]

/-- A text that can stand inside of a name. -/
def IsNamePart (text : String) : Prop :=
  ∀ c ∈ text.toList, isNameChar c = true

instance (text : String) : Decidable (IsNamePart text) :=
  decidable_of_iff (text.toList.all isNameChar = true) List.all_eq_true

theorem IsNamePart.append {first second : String} (left : IsNamePart first)
    (right : IsNamePart second) : IsNamePart (first ++ second) := by
  rw [IsNamePart, String.toList_append]
  exact List.forall_mem_append.mpr ⟨left, right⟩

theorem IsNamePart.isFlat {text : String} (name : IsNamePart text) : IsFlat text :=
  fun c member => isFlatChar_of_isNameChar (name c member)

theorem IsNamePart.not_mem {text : String} (name : IsNamePart text) {c : Char}
    (other : isNameChar c = false) : c ∉ text.toList :=
  fun member => by simp [name c member] at other

theorem isNamePart_of_isWord {text : String} (word : IsWord text.toList) : IsNamePart text :=
  fun c member => by simp [isNameChar, word c member]

theorem isFlat_of_isWord {text : String} (word : IsWord text.toList) : IsFlat text :=
  (isNamePart_of_isWord word).isFlat

/-- A place in plain code. -/
def Place.IsPlain (place : Place) (depth : Nat) : Prop :=
  ∃ before number, isPlain before = true ∧ place = ⟨.code before number, depth⟩

/-- A part of a line of code that leads from a number of open braces to another. -/
def Passes (first last : Nat) (text : String) : Prop :=
  ∀ place : Place, place.IsPlain first → ∃ behind, behind.IsPlain last ∧
    place.after text.toList = some behind

theorem Passes.append {first middle last : Nat} {start rest : String}
    (before : Passes first middle start) (behind : Passes middle last rest) :
    Passes first last (start ++ rest) := by
  intro place plain
  obtain ⟨between, usual, there⟩ := before place plain
  obtain ⟨final, last, done⟩ := behind between usual
  refine ⟨final, last, ?_⟩
  rw [String.toList_append, Place.after_append, there]
  exact done

/-- Plain code changes the place by its braces only. -/
theorem nextInCode_of_plain {before c : Char} (plain : isPlain before = true)
    (also : isPlain c = true) (number : Bool) (depth : Nat) :
    Place.nextInCode before number depth c =
      (Place.nested depth c).map (Place.mk (.code c (Place.inNumber before number c))) := by
  simp only [isPlain, List.mem_cons, List.not_mem_nil, or_false, not_or, decide_eq_true_eq]
    at plain also
  unfold Place.nextInCode
  simp [plain, also]

theorem passes_of_plain {text : String} (plain : text.toList.all isPlain = true)
    {first last : Nat} (nesting : text.toList.foldlM Place.nested first = some last) :
    Passes first last text := by
  unfold Passes
  generalize text.toList = chars at plain nesting
  induction chars generalizing first with
  | nil =>
    obtain rfl := Option.some.inj nesting
    exact fun place usual => ⟨place, usual, rfl⟩
  | cons c chars ih =>
    rintro _ ⟨before, number, usual, rfl⟩
    obtain ⟨here, later⟩ := Bool.and_eq_true_iff.mp plain
    obtain ⟨depth, step, rest⟩ := Option.bind_eq_some_iff.mp nesting
    obtain ⟨behind, known, there⟩ := ih later rest _ ⟨c, Place.inNumber before number c, here, rfl⟩
    refine ⟨behind, known, Option.bind_eq_some_iff.mpr ⟨_, ?_, there⟩⟩
    exact (nextInCode_of_plain usual here number first).trans (step ▸ rfl)

theorem IsFlat.passes {text : String} (flat : IsFlat text) (depth : Nat) :
    Passes depth depth text := by
  have parts : ∀ c ∈ text.toList, isPlain c = true ∧ Place.nested depth c = some depth := by
    intro c member
    obtain ⟨plain, free⟩ := Bool.and_eq_true_iff.mp (flat c member)
    refine ⟨plain, ?_⟩
    simp only [List.mem_cons, List.not_mem_nil, or_false, not_or, decide_eq_true_eq] at free
    simp [Place.nested, free]
  apply passes_of_plain (List.all_eq_true.mpr fun c member => (parts c member).1)
  generalize text.toList = chars at parts
  induction chars with
  | nil => rfl
  | cons c chars ih =>
    obtain ⟨here, later⟩ := List.forall_mem_cons.mp parts
    exact Option.bind_eq_some_iff.mpr ⟨depth, here.2, ih later⟩

theorem Passes.moves {first last : Nat} {line : String} (passes : Passes first last line) :
    Moves first last [line] := by
  obtain ⟨_, ⟨before, number, plain, rfl⟩, there⟩ := passes _ ⟨'\n', false, by decide, rfl⟩
  rw [Moves, toList_textOf, List.flatMap_singleton, Place.after_append]
  refine Option.bind_eq_some_iff.mpr ⟨_, there, ?_⟩
  have ended := nextInCode_of_plain plain (c := '\n') (by decide) number last
  exact Option.bind_eq_some_iff.mpr ⟨_, ended, rfl⟩

theorem IsFlat.closed {text : String} (flat : IsFlat text) : Closed [text] :=
  (flat.passes 0).moves

theorem closed_flatMap {α : Type} {render : α → List String} {items : List α}
    (closed : ∀ item ∈ items, Closed (render item)) : Closed (items.flatMap render) := by
  induction items with
  | nil => rfl
  | cons item items ih =>
    obtain ⟨here, later⟩ := List.forall_mem_cons.mp closed
    exact here.append (ih later)

theorem closed_of_forall {lines : List String} (closed : ∀ line ∈ lines, Closed [line]) :
    Closed lines := by
  have all := closed_flatMap closed
  rwa [List.flatMap_singleton'] at all

end DecoderTables.Header
