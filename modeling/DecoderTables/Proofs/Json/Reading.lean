import DecoderTables.Proofs.Json.Grammar
import DecoderTables.Proofs.Json.Merging

/-!
What a reader gives on the texts of a value. It does not depend on which of the texts is read, and
the reader leaves what stands behind the text. A reader of lists or of objects is described by what
each item or member does to its state.
-/

namespace DecoderTables.Json

variable {α β σ ι : Type}

theorem Value.Form.skipSpace_eq {v : Value} {space text : List Char} (blank : Blank space)
    (form : v.Form text) (rest : List Char) :
    skipSpace (space ++ (text ++ rest)) = text ++ rest := by
  obtain ⟨c, more, rfl, begins⟩ := form.exists_begins
  exact skipSpace_append_cons blank (Value.isSpace_eq_of_begins begins) (more ++ rest)

theorem Value.Form.exists_starts {v : Value} {space text : List Char} (blank : Blank space)
    (form : v.Form text) (rest : List Char) :
    ∃ c more, skipSpace (space ++ (text ++ rest)) = c :: more ∧ v.begins c = true := by
  obtain ⟨c, more, split, begins⟩ := form.exists_begins
  exact ⟨c, more ++ rest, by rw [form.skipSpace_eq blank, split, List.cons_append], begins⟩

theorem QuotedForm.exists_begins {name : String} {text : List Char}
    (form : QuotedForm name text) : ∃ more, text = '"' :: more := by
  obtain @⟨body, _⟩ := form
  exact ⟨_, rfl⟩

theorem QuotedForm.skipSpace_eq {name : String} {space text : List Char} (blank : Blank space)
    (form : QuotedForm name text) (rest : List Char) :
    skipSpace (space ++ (text ++ rest)) = text ++ rest := by
  obtain ⟨more, rfl⟩ := form.exists_begins
  exact skipSpace_append_cons blank (by decide) (more ++ rest)

theorem QuotedForm.exists_starts {name : String} {space text : List Char} (blank : Blank space)
    (form : QuotedForm name text) (rest : List Char) :
    ∃ more, skipSpace (space ++ (text ++ rest)) = '"' :: more := by
  obtain ⟨more, split⟩ := form.exists_begins
  exact ⟨more ++ rest, by rw [form.skipSpace_eq blank, split, List.cons_append]⟩

/-- What may stand behind a value: a number goes on as long as it can. -/
def Value.EndsBefore : Value → List Char → Prop
  | .number _, rest => Ends rest
  | _, _ => True

theorem Ends.endsBefore {rest : List Char} (ends : Ends rest) (v : Value) : v.EndsBefore rest := by
  cases v with
  | number n => exact ends
  | _ => trivial

/-- On every text of the value, the reader gives what is held to be right, and no more is read. -/
def Reads (read : Reader α) (v : Value) (holds : α → Prop) : Prop :=
  ∀ ⦃space text rest : List Char⦄, Blank space → v.Form text → v.EndsBefore rest →
    ∀ a left, read.answer (space ++ (text ++ rest)) = some (a, left) ↔ holds a ∧ left = rest

/-- The same for a reader that is chosen by the name of a member, if one is. -/
def ChoiceReads (choice : Except ReadError (Reader α)) (v : Value) (holds : α → Prop) : Prop :=
  match choice with
  | .ok read => Reads read v holds
  | .error _ => ∀ a, ¬holds a

theorem Reads.congr {read : Reader α} {v : Value} {holds others : α → Prop}
    (reads : Reads read v holds) (same : ∀ a, holds a ↔ others a) : Reads read v others :=
  fun _ _ _ blank form ends a left =>
    (reads blank form ends a left).trans (and_congr_left fun _ => same a)

theorem Reads.map {read : Reader α} {v : Value} {holds : α → Prop} (reads : Reads read v holds)
    (f : α → β) : Reads (read.map f) v fun b => ∃ a, holds a ∧ b = f a := by
  intro space text rest blank form ends b left
  rw [answer_map, Option.map_eq_some_iff]
  constructor
  · rintro ⟨⟨a, _⟩, read, same⟩
    obtain ⟨rfl, rfl⟩ := Prod.mk.inj same
    obtain ⟨held, rfl⟩ := (reads blank form ends _ _).mp read
    exact ⟨⟨a, held, rfl⟩, rfl⟩
  · rintro ⟨⟨a, held, rfl⟩, rfl⟩
    exact ⟨(a, left), (reads blank form ends _ _).mpr ⟨held, rfl⟩, rfl⟩

theorem Reads.of_mismatch {opening : Char} {v : Value} (other : v.begins opening = false)
    (expected : String) (body : Reader α) {holds : α → Prop} (never : ∀ a, ¬holds a) :
    Reads (opened opening expected body) v holds := by
  intro space text rest blank form ends a left
  rw [answer_opened, form.skipSpace_eq blank]
  obtain ⟨c, more, rfl, begins⟩ := form.exists_begins
  have ne : c ≠ opening := by
    rintro rfl
    rw [other] at begins
    cases begins
  simp only [List.cons_append, if_neg ne]
  simp [never]

/-- A run over a list in which each item changes the state. -/
def Folds (step : σ → ι → σ → Prop) : σ → List ι → σ → Prop
  | before, [], after => after = before
  | before, x :: xs, after => ∃ between, step before x between ∧ Folds step between xs after

theorem folds_function (f : σ → ι → σ) (before after : σ) (xs : List ι) :
    Folds (fun before x after => after = f before x) before xs after ↔
      after = xs.foldl f before := by
  induction xs generalizing before with
  | nil => rfl
  | cons x xs ih => simp only [Folds, exists_eq_left, ih, List.foldl_cons]

/-- A run that puts what each item stands for in front of a list. -/
theorem folds_cons (holds : ι → α → Prop) (found after : List α) (xs : List ι) :
    Folds (fun before x after => ∃ a, holds x a ∧ after = a :: before) found xs after ↔
      ∃ new, List.Forall₂ holds xs new ∧ after = new.reverse ++ found := by
  induction xs generalizing found with
  | nil => simp [Folds]
  | cons x xs ih =>
    simp only [Folds, ih, List.forall₂_cons_left_iff]
    constructor
    · rintro ⟨_, ⟨a, held, rfl⟩, new, all, rfl⟩
      exact ⟨a :: new, ⟨a, new, held, all, rfl⟩, by simp⟩
    · rintro ⟨_, ⟨a, new, held, all, rfl⟩, rfl⟩
      exact ⟨_, ⟨a, held, rfl⟩, new, all, by simp⟩

/-- An answer that the next reader goes on from. -/
theorem bind_eq_some_iff_exists {answer : Option (σ × List Char)}
    (next : σ → List Char → Option (β × List Char)) {behind rest : List Char} {step : σ → Prop}
    {run : σ → β → Prop}
    (reads : ∀ between left, answer = some (between, left) ↔ step between ∧ left = behind)
    (others : ∀ between after left, next between behind = some (after, left) ↔
      run between after ∧ left = rest) (after : β) (left : List Char) :
    (answer.bind fun found => next found.1 found.2) = some (after, left) ↔
      (∃ between, step between ∧ run between after) ∧ left = rest := by
  rw [Option.bind_eq_some_iff]
  constructor
  · rintro ⟨⟨between, _⟩, read, tail⟩
    obtain ⟨stepped, rfl⟩ := (reads _ _).mp read
    obtain ⟨ran, rfl⟩ := (others _ _ _).mp tail
    exact ⟨⟨between, stepped, ran⟩, rfl⟩
  · rintro ⟨⟨between, stepped, ran⟩, rfl⟩
    exact ⟨(between, behind), (reads _ _).mpr ⟨stepped, rfl⟩, (others _ _ _).mpr ⟨ran, rfl⟩⟩

section Folding

variable {bracket : Bracket} {item : σ → Reader σ} {step : σ → ι → σ → Prop}

/-- The fold over a list of items, from the first of them and the fold over the others. -/
theorem seen_foldItems_cons_iff {first : Bool} {before : σ} {x : ι} {xs : List ι}
    {separator text more behind rest : List Char} {c : Char} (separates : Separator first separator)
    (starts : skipSpace text = c :: more) (opens : c ≠ bracket.close)
    (reads : ∀ between left, (item before).answer text = some (between, left) ↔
      step before x between ∧ left = behind)
    (others : ∀ between after left, seen (foldItems bracket item false between behind) =
      some (after, left) ↔ Folds step between xs after ∧ left = rest) (after : σ)
    (left : List Char) :
    seen (foldItems bracket item first before (separator ++ text)) = some (after, left) ↔
      Folds step before (x :: xs) after ∧ left = rest := by
  rw [seen_foldItems_item bracket item first before separates starts opens]
  exact bind_eq_some_iff_exists
    (fun between behind => seen (foldItems bracket item false between behind)) reads others after
    left

theorem seen_foldItems_nil_iff {first : Bool} (before : σ) {space : List Char}
    (blank : Blank space) (rest : List Char) (after : σ) (left : List Char) :
    seen (foldItems bracket item first before (space ++ bracket.close :: rest)) =
      some (after, left) ↔ Folds step before [] after ∧ left = rest := by
  rw [seen_foldItems_close bracket item first before blank, Option.some.injEq, Prod.mk.injEq,
    Folds, eq_comm, @eq_comm _ rest]

end Folding

theorem ItemsForm.ends {items : List Value} {text : List Char} (form : ItemsForm false items text)
    (rest : List Char) : Ends (text ++ rest) := by
  cases form with
  | close blank =>
    rw [List.append_assoc]
    exact ends_append blank ⟨rfl, by decide, by decide, by decide⟩
  | item separates =>
    obtain ⟨space, blank, rfl⟩ := separates
    simp only [List.append_assoc]
    exact ends_append blank ⟨rfl, by decide, by decide, by decide⟩

theorem MembersForm.ends {members : Members} {text : List Char}
    (form : MembersForm false members text) (rest : List Char) : Ends (text ++ rest) := by
  cases form with
  | close blank =>
    rw [List.append_assoc]
    exact ends_append blank ⟨rfl, by decide, by decide, by decide⟩
  | member separates =>
    obtain ⟨space, blank, rfl⟩ := separates
    simp only [List.append_assoc]
    exact ends_append blank ⟨rfl, by decide, by decide, by decide⟩

theorem ItemsForm.starts {first : Bool} {v : Value} {values : List Value}
    {text : List Char} (form : ItemsForm first (v :: values) text) (rest : List Char) :
    ∃ c more, skipSpace (text ++ rest) = c :: more ∧ c ≠ ']' := by
  cases form with
  | @item _ _ _ separator space text more separates blank form others =>
    cases first with
    | true =>
      obtain rfl : separator = [] := separates
      obtain ⟨c, tail, starts, begins⟩ := form.exists_starts blank (more ++ rest)
      rw [item_append, List.nil_append]
      exact ⟨c, tail, starts, Value.ne_close_of_begins begins .square⟩
    | false =>
      obtain ⟨before, blank, rfl⟩ := separates
      rw [item_append, List.append_assoc, List.singleton_append]
      exact ⟨',', _, skipSpace_append_cons blank (by decide) _, by decide⟩

theorem seen_foldItems_items (item : σ → Reader σ) (step : σ → Value → σ → Prop)
    {values : List Value} (each : ∀ v ∈ values, ∀ before, Reads (item before) v (step before v))
    {first : Bool} {text : List Char} (form : ItemsForm first values text) (rest : List Char)
    (before after : σ) (left : List Char) :
    seen (foldItems .square item first before (text ++ rest)) = some (after, left) ↔
      Folds step before values after ∧ left = rest := by
  induction values generalizing first text before after left with
  | nil =>
    cases form with
    | close blank =>
      rw [List.append_assoc]
      exact seen_foldItems_nil_iff before blank rest after left
  | cons v values ih =>
    obtain ⟨reads, each⟩ := List.forall_mem_cons.mp each
    cases form with
    | @item _ _ _ separator space text more separates blank form others =>
      obtain ⟨c, tail, starts, begins⟩ := form.exists_starts blank (more ++ rest)
      rw [item_append]
      exact seen_foldItems_cons_iff separates starts (Value.ne_close_of_begins begins .square)
        (reads before blank form ((others.ends rest).endsBefore v)) (ih each others) after left

theorem answer_member_iff {choose : String → Except ReadError (Reader α)} {name : String}
    {v : Value} {holds : α → Prop} (reads : ChoiceReads (choose name) v holds)
    {space nameText before after text rest : List Char} (blank : Blank space)
    (nameForm : QuotedForm name nameText) (blankBefore : Blank before) (blankAfter : Blank after)
    (form : v.Form text) (ends : v.EndsBefore rest) (a : α) (left : List Char) :
    (member choose).answer (space ++ (nameText ++ (before ++ ':' :: (after ++ (text ++ rest))))) =
      some (a, left) ↔ holds a ∧ left = rest := by
  obtain ⟨shorter, separated⟩ := colon_eq blankBefore (after ++ (text ++ rest))
  rw [answer_member choose (answer_memberName blank nameForm _) separated]
  unfold ChoiceReads at reads
  cases choice : choose name with
  | ok read =>
    rw [choice] at reads
    exact reads blankAfter form ends a left
  | error fault =>
    rw [choice] at reads
    simp [chosen, reads a]

theorem seen_foldItems_members (choose : σ → String → Except ReadError (Reader σ))
    (step : σ → String × Value → σ → Prop) {members : Members}
    (each : ∀ m ∈ members, ∀ before, ChoiceReads (choose before m.1) m.2 (step before m))
    {first : Bool} {text : List Char} (form : MembersForm first members text) (rest : List Char)
    (before after : σ) (left : List Char) :
    seen (foldItems .curly (fun state => member (choose state)) first before (text ++ rest)) =
      some (after, left) ↔ Folds step before members after ∧ left = rest := by
  induction members generalizing first text before after left with
  | nil =>
    cases form with
    | close blank =>
      rw [List.append_assoc]
      exact seen_foldItems_nil_iff before blank rest after left
  | cons m members ih =>
    obtain ⟨reads, eachOther⟩ := List.forall_mem_cons.mp each
    cases form with
    | @member _ name v _ separator space nameText colonBefore colonAfter text more separates blank
        nameForm blankBefore blankAfter form others =>
      obtain ⟨body, starts⟩ := nameForm.exists_starts blank
        (colonBefore ++ ':' :: (colonAfter ++ (text ++ (more ++ rest))))
      rw [member_append]
      exact seen_foldItems_cons_iff separates starts (by decide)
        (answer_member_iff (reads before) blank nameForm blankBefore blankAfter form
          ((others.ends rest).endsBefore v)) (ih eachOther others) after left

end DecoderTables.Json
