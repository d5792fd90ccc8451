import DecoderTables.Proofs.Json.Reading

/-!
The readers of strings, of lists and of whole values. A value is read as it is written, with the
repeated names of its objects merged, when its brackets nest no deeper than the reader goes.
-/

namespace DecoderTables.Json

variable {α σ : Type}

theorem reads_string (v : Value) : Reads string v fun s => v = .string s := by
  cases v with
  | string s =>
    intro space text rest blank form ends found left
    have skipped := form.skipSpace_eq blank rest
    cases form with | string form =>
    obtain @⟨body, form⟩ := form
    have joined : '"' :: (body ++ ['"']) ++ rest = '"' :: (body ++ '"' :: rest) := by simp
    obtain ⟨shorter, read⟩ := quotedText_of_form form rest
    have answer : Reader.answer quotedText (body ++ '"' :: rest) = some (s, rest) := by
      rw [Reader.answer, read]
      rfl
    rw [string, answer_opened, skipped, joined]
    simp only [↓reduceIte, answer, Option.some.injEq, Prod.mk.injEq, Value.string.injEq,
      @eq_comm _ rest]
  | bool b => exact .of_mismatch (by cases b <;> rfl) _ _ fun _ same => by cases same
  | _ => exact .of_mismatch rfl _ _ fun _ same => by cases same

theorem reads_opened_array {body : Reader α} {items : List Value} {holds : α → Prop}
    (reads : ∀ {text}, ItemsForm true items text → ∀ rest a left,
      body.answer (text ++ rest) = some (a, left) ↔ holds a ∧ left = rest) (expected : String) :
    Reads (opened '[' expected body) (.array items) holds := by
  intro space text rest blank form ends a left
  have skipped := form.skipSpace_eq blank rest
  cases form with | array form =>
  rw [answer_opened, skipped]
  exact reads form rest a left

theorem reads_opened_object {body : Reader α} {members : Members} {holds : α → Prop}
    (reads : ∀ {text}, MembersForm true members text → ∀ rest a left,
      body.answer (text ++ rest) = some (a, left) ↔ holds a ∧ left = rest) (expected : String) :
    Reads (opened '\x7b' expected body) (.object members) holds := by
  intro space text rest blank form ends a left
  have skipped := form.skipSpace_eq blank rest
  cases form with | object form =>
  rw [answer_opened, skipped]
  exact reads form rest a left

theorem answer_items_iff {item : Reader α} {values : List Value} {holds : Value → α → Prop}
    (each : ∀ v ∈ values, Reads item v (holds v)) {text : List Char}
    (form : ItemsForm true values text) (rest : List Char) (found : List α) (left : List Char) :
    (items item).answer (text ++ rest) = some (found, left) ↔
      List.Forall₂ holds values found ∧ left = rest := by
  have folds := seen_foldItems_items (fun found => item.map (· :: found))
    (fun before v after => ∃ a, holds v a ∧ after = a :: before)
    (fun v member before => (each v member).map (· :: before)) form rest []
  have reversed : (items item).answer (text ++ rest) =
      (seen (foldItems .square (fun found => item.map (· :: found)) true [] (text ++ rest))).map
        fun found => (found.1.reverse, found.2) :=
    seen_map _ List.reverse id fun _ => rfl
  rw [reversed, Option.map_eq_some_iff]
  constructor
  · rintro ⟨⟨after, _⟩, read, same⟩
    obtain ⟨rfl, rfl⟩ := Prod.mk.inj same
    obtain ⟨run, rfl⟩ := (folds _ _).mp read
    obtain ⟨new, all, rfl⟩ := (folds_cons _ _ _ _).mp run
    simpa using all
  · rintro ⟨all, rfl⟩
    refine ⟨(found.reverse, left),
      (folds _ _).mpr ⟨(folds_cons _ _ _ _).mpr ⟨found, all, ?_⟩, rfl⟩, ?_⟩
    · rw [List.append_nil]
    · rw [List.reverse_reverse]

theorem answer_members_iff {item : Reader Value} {members : Members}
    (each : ∀ m ∈ members, Reads item m.2 (· = m.2.merged)) {text : List Char}
    (form : MembersForm true members text) (rest : List Char) (found : Members)
    (left : List Char) :
    (Json.members item).answer (text ++ rest) = some (found, left) ↔
      found = (Value.mergedMembers members).merged ∧ left = rest := by
  have folds := seen_foldItems_members
    (fun found name => .ok (item.map (Members.put found name)))
    (fun before m after => after = Members.put before m.1 m.2.merged)
    (fun m member before => ((each m member).map (Members.put before m.1)).congr (by simp)) form
    rest []
  refine (folds found left).trans (and_congr_left fun _ => ?_)
  rw [folds_function, ← Members.foldl_put, Value.mergedMembers_eq_map, List.foldl_map]

theorem answer_value (depth : Nat) {v : Value} {space text : List Char} (blank : Blank space)
    (form : v.Form text) (rest : List Char) :
    ∃ c more, text = c :: more ∧ v.begins c = true ∧
      (value depth).answer (space ++ (text ++ rest)) =
        seen (valueFrom (nested depth) c (more ++ rest)) := by
  obtain ⟨c, more, split, begins⟩ := form.exists_begins
  refine ⟨c, more, split, begins, ?_⟩
  rw [value, valueWith, answer_token, form.skipSpace_eq blank, split]
  rfl

theorem seen_valueFrom_number {c : Char} (begins : (c == '-' || c.isDigit) = true)
    (nested : Bracket → Reader Value) (text : List Char) :
    seen (valueFrom nested c text) =
      (numberText.answer (c :: text)).map fun found => (.number found.1, found.2) := by
  have ne : ∀ other, (other == '-' || other.isDigit) = false → c ≠ other := by
    rintro other wrong rfl
    rw [wrong] at begins
    cases begins
  unfold valueFrom
  rw [if_neg (ne '"' rfl), if_neg (ne '[' rfl), if_neg (ne '\x7b' rfl), if_neg (ne 'n' rfl),
    if_neg (ne 't' rfl), if_neg (ne 'f' rfl), if_pos (by simpa using begins)]
  exact seen_map (numberText (c :: text)) Value.number id fun _ => rfl

theorem seen_valueFrom_square (depth : Nat) (text : List Char) :
    seen (valueFrom (nested (depth + 1)) '[' text) =
      ((items (value depth)).answer text).map fun found => (.array found.1, found.2) :=
  (seen_move (nested (depth + 1) .square text) (·.afterCons '[') fun _ => rfl).trans
    (seen_map (items (value depth) text) Value.array id fun _ => rfl)

theorem seen_valueFrom_curly (depth : Nat) (text : List Char) :
    seen (valueFrom (nested (depth + 1)) '\x7b' text) =
      ((members (value depth)).answer text).map fun found => (.object found.1, found.2) :=
  (seen_move (nested (depth + 1) .curly text) (·.afterCons '\x7b') fun _ => rfl).trans
    (seen_map (members (value depth) text) Value.object id fun _ => rfl)

theorem Reads.of_answer {read : Reader α} {v : Value} {b : α}
    (answer : ∀ ⦃space text rest : List Char⦄, Blank space → v.Form text → v.EndsBefore rest →
      read.answer (space ++ (text ++ rest)) = some (b, rest)) : Reads read v (· = b) := by
  intro space text rest blank form ends a left
  rw [answer blank form ends, Option.some.injEq, Prod.mk.injEq, eq_comm, @eq_comm _ rest]

/-- The limit is on the brackets of the value, not on the length of its text. -/
theorem reads_value {v : Value} {depth : Nat} (limit : v.depth ≤ depth) :
    Reads (value depth) v (· = v.merged) := by
  induction v using Value.inductionOn generalizing depth with
  | null =>
    refine .of_answer fun space text rest blank form _ => ?_
    obtain ⟨c, more, split, begins, answer⟩ := answer_value depth blank form rest
    rw [answer]
    cases form
    cases split
    rfl
  | bool b =>
    refine .of_answer fun space text rest blank form _ => ?_
    obtain ⟨c, more, split, begins, answer⟩ := answer_value depth blank form rest
    rw [answer]
    cases form <;> cases split <;> rfl
  | number n =>
    refine .of_answer fun space text rest blank form ends => ?_
    obtain ⟨c, more, split, begins, answer⟩ := answer_value depth blank form rest
    cases form with | integer n =>
    obtain ⟨shorter, read⟩ := numberText_integer n ends
    rw [answer, seen_valueFrom_number begins, ← List.cons_append, ← split, Reader.answer, read]
    rfl
  | string s =>
    refine .of_answer fun space text rest blank form _ => ?_
    obtain ⟨c, more, split, begins, answer⟩ := answer_value depth blank form rest
    cases form with | string form =>
    obtain @⟨body, form⟩ := form
    cases split
    have joined : body ++ ['"'] ++ rest = body ++ '"' :: rest := by simp
    obtain ⟨shorter, read⟩ := quotedText_of_form form rest
    rw [answer, joined, valueFrom, if_pos rfl, read]
    rfl
  | array items each =>
    refine .of_answer fun space text rest blank form _ => ?_
    obtain ⟨c, more, split, begins, answer⟩ := answer_value depth blank form rest
    cases form with | array form =>
    cases split
    obtain ⟨depth, rfl, inside⟩ := Value.exists_items_limit limit
    have all : List.Forall₂ (fun v a => a = v.merged) items (Value.mergedItems items) := by
      rw [Value.mergedItems_eq_map, List.forall₂_map_right_iff, List.forall₂_same]
      exact fun _ _ => rfl
    have read := (answer_items_iff (fun v member => each v member (inside v member)) form rest
      (Value.mergedItems items) rest).mpr ⟨all, rfl⟩
    rw [answer, seen_valueFrom_square, read, Value.merged]
    rfl
  | object members each =>
    refine .of_answer fun space text rest blank form _ => ?_
    obtain ⟨c, more, split, begins, answer⟩ := answer_value depth blank form rest
    cases form with | object form =>
    cases split
    obtain ⟨depth, rfl, inside⟩ := Value.exists_members_limit limit
    have read := (answer_members_iff (fun m member => each m member (inside m member)) form rest
      _ rest).mpr ⟨rfl, rfl⟩
    rw [answer, seen_valueFrom_curly, read, Value.merged]
    rfl

theorem reads_listOf {item : Nat → Reader α} {items : List Value} {holds : Value → α → Prop}
    {depth : Nat} (each : ∀ v ∈ items, Reads (item depth) v (holds v)) :
    Reads (listOf (depth + 1) item) (.array items) (List.Forall₂ holds items) :=
  reads_opened_array (fun form => answer_items_iff each form) "a sequence"

theorem reads_strings {v : Value} {depth : Nat} (limit : v.depth ≤ depth) :
    Reads (listOf depth fun _ => string) v fun texts => v = .array (texts.map .string) := by
  cases v with
  | array items =>
    obtain ⟨depth, rfl, _⟩ := Value.exists_items_limit limit
    refine (reads_listOf fun v _ => reads_string v).congr fun texts => ?_
    rw [Value.array.injEq, ← List.forall₂_eq_eq_eq, List.forall₂_map_right_iff]
  | null => exact .of_mismatch rfl _ _ nofun
  | bool b => exact .of_mismatch (by cases b <;> rfl) _ _ nofun
  | number n => exact .of_mismatch rfl _ _ nofun
  | string s => exact .of_mismatch rfl _ _ nofun
  | object members => exact .of_mismatch rfl _ _ nofun

theorem reads_objectOf (choose : Nat → σ → String → Except ReadError (Reader σ))
    (step : σ → String × Value → σ → Prop) {members : Members} {depth : Nat}
    (each : ∀ m ∈ members, ∀ before, ChoiceReads (choose depth before m.1) m.2 (step before m))
    (expected : String) (start : σ) :
    Reads (objectOf (depth + 1) expected start choose) (.object members)
      (Folds step start members) :=
  reads_opened_object (fun form rest => seen_foldItems_members _ step each form rest start) expected

theorem Value.begins_curly_eq_false {v : Value} (other : ∀ members, v ≠ .object members) :
    v.begins '\x7b' = false := by
  cases v with
  | object members => exact absurd rfl (other members)
  | bool b => cases b <;> rfl
  | _ => rfl

theorem reads_objectOf_other {v : Value} (other : ∀ members, v ≠ .object members) (depth : Nat)
    (expected : String) (start : σ)
    (choose : Nat → σ → String → Except ReadError (Reader σ)) :
    Reads (objectOf depth expected start choose) v fun _ => False :=
  .of_mismatch (Value.begins_curly_eq_false other) _ _ fun _ => id

end DecoderTables.Json
