import DecoderTables.Document.Reader
import DecoderTables.Proofs.Json.Skipping
import DecoderTables.Proofs.Json.Values

/-!
The members of a record. One that the record knows has a slot of its own, which is filled at most
once; one that it does not know is put with the others or ignored. What a run over all members
leaves in a slot depends on the members of that name alone.
-/

namespace DecoderTables
open Json

variable {α β σ : Type}

/-- The values of the members of a name. -/
def Json.Members.valuesOf (members : Members) (name : String) : List Value :=
  (members.filter (·.1 = name)).map Prod.snd

/-- A member of a name that is not there, or is there once with the value that `holds` relates. -/
def Slot (name : String) (holds : Value → α → Prop) (members : Members) : Option α → Prop
  | none => members.valuesOf name = []
  | some a => ∃ v, members.valuesOf name = [v] ∧ holds v a

/-- What one member does to a slot. -/
def SlotStep (name : String) (holds : Value → α → Prop) (before : Option α)
    (m : String × Value) (after : Option α) : Prop :=
  if m.1 = name then before = none ∧ ∃ a, holds m.2 a ∧ after = some a else after = before

theorem slotStep_self (name : String) (holds : Value → α → Prop) (before after : Option α)
    (v : Value) : SlotStep name holds before (name, v) after ↔
      before = none ∧ ∃ a, holds v a ∧ after = some a := by
  rw [SlotStep, if_pos rfl]

theorem slotStep_ne {key name : String} (ne : key ≠ name) (holds : Value → α → Prop)
    (before after : Option α) (v : Value) :
    SlotStep name holds before (key, v) after ↔ after = before := by
  rw [SlotStep, if_neg ne]

theorem valuesOf_cons_self (name : String) (v : Value) (members : Members) :
    Members.valuesOf ((name, v) :: members) name = v :: members.valuesOf name := by
  simp [Members.valuesOf]

theorem valuesOf_cons_ne {key name : String} (ne : key ≠ name) (v : Value) (members : Members) :
    Members.valuesOf ((key, v) :: members) name = members.valuesOf name := by
  simp [Members.valuesOf, ne]

/-- A slot that is filled stays as it is, and no other member of its name may follow. -/
theorem folds_slotStep_some (name : String) (holds : Value → α → Prop) (a : α)
    (members : Members) (after : Option α) :
    Folds (SlotStep name holds) (some a) members after ↔
      members.valuesOf name = [] ∧ after = some a := by
  induction members with
  | nil => simp [Folds, Members.valuesOf]
  | cons m members ih =>
    obtain ⟨key, v⟩ := m
    by_cases same : key = name
    · cases same
      simp [Folds, slotStep_self, valuesOf_cons_self]
    · simp only [Folds, slotStep_ne same, exists_eq_left, ih, valuesOf_cons_ne same]

theorem folds_slotStep_iff (name : String) (holds : Value → α → Prop) (members : Members)
    (after : Option α) :
    Folds (SlotStep name holds) none members after ↔ Slot name holds members after := by
  induction members with
  | nil => cases after <;> simp [Folds, Slot, Members.valuesOf]
  | cons m members ih =>
    obtain ⟨key, v⟩ := m
    by_cases same : key = name
    · cases same
      simp only [Folds, slotStep_self, true_and]
      constructor
      · rintro ⟨_, ⟨a, held, rfl⟩, run⟩
        obtain ⟨alone, rfl⟩ := (folds_slotStep_some _ _ _ _ _).mp run
        exact ⟨v, by rw [valuesOf_cons_self, alone], held⟩
      · intro slot
        cases after with
        | none =>
          rw [Slot, valuesOf_cons_self] at slot
          cases slot
        | some a =>
          obtain ⟨w, only, held⟩ := slot
          rw [valuesOf_cons_self] at only
          obtain ⟨rfl, alone⟩ := List.cons.inj only
          exact ⟨some a, ⟨a, held, rfl⟩, (folds_slotStep_some _ _ _ _ _).mpr ⟨alone, rfl⟩⟩
    · simp only [Folds, slotStep_ne same, exists_eq_left, ih]
      cases after <;> simp only [Slot, valuesOf_cons_ne same]

/-- What one member does to the members that a record does not know. -/
def OtherStep (known : List String) (before : Members) (m : String × Value) (after : Members) :
    Prop :=
  after = if m.1 ∈ known then before else before.put m.1 m.2.merged

theorem otherStep_known {known : List String} {name : String} (inside : name ∈ known)
    (before after : Members) (v : Value) :
    OtherStep known before (name, v) after ↔ after = before := by
  rw [OtherStep, if_pos inside]

theorem otherStep_other {known : List String} {name : String} (outside : name ∉ known)
    (before after : Members) (v : Value) :
    OtherStep known before (name, v) after ↔ after = before.put name v.merged := by
  rw [OtherStep, if_neg outside]

/-- The members that a record does not know. -/
def Json.Members.others (members : Members) (known : List String) : Members :=
  members.filter (·.1 ∉ known)

theorem folds_otherStep_iff (known : List String) (members after : Members) :
    Folds (OtherStep known) [] members after ↔
      after = (Value.mergedMembers (members.others known)).merged := by
  refine (folds_function _ _ _ _).trans (Eq.congr_right ?_)
  rw [← Members.foldl_put, Value.mergedMembers_eq_map, List.foldl_map, Members.others,
    List.foldl_filter]
  simp only [decide_not, Bool.not_eq_true', decide_eq_false_iff_not, ite_not]

section Parts

variable {γ δ ι : Type} (step : σ → ι → σ → Prop) (stepA : α → ι → α → Prop)
  (stepB : β → ι → β → Prop) (stepC : γ → ι → γ → Prop) (stepD : δ → ι → δ → Prop)

/-- A run that changes two parts of a state independently is a run of each part. -/
theorem folds_two (a : σ → α) (b : σ → β) (join : α → β → σ)
    (joins : ∀ x y, (a (join x y), b (join x y)) = (x, y)) (splits : ∀ s, s = join (a s) (b s))
    (steps : ∀ s x t, step s x t ↔ stepA (a s) x (a t) ∧ stepB (b s) x (b t)) (s t : σ)
    (xs : List ι) :
    Folds step s xs t ↔ Folds stepA (a s) xs (a t) ∧ Folds stepB (b s) xs (b t) := by
  induction xs generalizing s with
  | nil =>
    simp only [Folds]
    constructor
    · rintro rfl
      exact ⟨rfl, rfl⟩
    · rintro ⟨first, second⟩
      rw [splits t, first, second, ← splits s]
  | cons x xs ih =>
    simp only [Folds, steps, ih]
    constructor
    · rintro ⟨u, ⟨firstStep, secondStep⟩, first, second⟩
      exact ⟨⟨a u, firstStep, first⟩, b u, secondStep, second⟩
    · rintro ⟨⟨p, firstStep, first⟩, q, secondStep, second⟩
      obtain ⟨joinA, joinB⟩ := Prod.mk.inj (joins p q)
      refine ⟨join p q, ?_, ?_⟩
      · rw [joinA, joinB]
        exact ⟨firstStep, secondStep⟩
      · rw [joinA, joinB]
        exact ⟨first, second⟩

theorem folds_prod (s t : α × β) (xs : List ι) :
    Folds (fun s x t => stepA s.1 x t.1 ∧ stepB s.2 x t.2) s xs t ↔
      Folds stepA s.1 xs t.1 ∧ Folds stepB s.2 xs t.2 :=
  folds_two _ stepA stepB Prod.fst Prod.snd Prod.mk (fun _ _ => rfl)
    (fun _ => rfl) (fun _ _ _ => Iff.rfl) s t xs

theorem folds_four (a : σ → α) (b : σ → β) (c : σ → γ) (d : σ → δ) (join : α → β → γ → δ → σ)
    (joins : ∀ w x y z, (a (join w x y z), b (join w x y z), c (join w x y z),
      d (join w x y z)) = (w, x, y, z))
    (splits : ∀ s, s = join (a s) (b s) (c s) (d s))
    (steps : ∀ s x t, step s x t ↔ stepA (a s) x (a t) ∧ stepB (b s) x (b t) ∧
      stepC (c s) x (c t) ∧ stepD (d s) x (d t)) (s t : σ) (xs : List ι) :
    Folds step s xs t ↔ Folds stepA (a s) xs (a t) ∧ Folds stepB (b s) xs (b t) ∧
      Folds stepC (c s) xs (c t) ∧ Folds stepD (d s) xs (d t) := by
  let stepCD : γ × δ → ι → γ × δ → Prop := fun s x t => stepC s.1 x t.1 ∧ stepD s.2 x t.2
  let stepBCD : β × γ × δ → ι → β × γ × δ → Prop := fun s x t => stepB s.1 x t.1 ∧ stepCD s.2 x t.2
  rw [folds_two step stepA stepBCD a (fun s => (b s, c s, d s))
    (fun w (x, y, z) => join w x y z) (fun w (x, y, z) => joins w x y z)
    splits steps s t xs, folds_prod stepB stepCD, folds_prod stepC stepD]

end Parts

theorem Json.ChoiceReads.congr {choice : Except ReadError (Reader α)} {v : Value}
    {holds others : α → Prop} (reads : ChoiceReads choice v holds)
    (same : ∀ a, holds a ↔ others a) : ChoiceReads choice v others := by
  cases choice with
  | ok read => exact Reads.congr reads same
  | error fault => exact fun a held => reads a ((same a).mpr held)

theorem choiceReads_once {read : Reader α} {v : Value} {holds : α → Prop}
    (reads : Reads read v holds) (name : String) (before : Option α) (set : Option α → σ) :
    ChoiceReads (once name before read set) v fun after =>
      before = none ∧ ∃ a, holds a ∧ after = set (some a) := by
  cases before with
  | none => exact (reads.map fun a => set (some a)).congr fun _ => by simp
  | some old => exact fun _ ⟨absent, _⟩ => by cases absent

theorem choiceReads_otherMember {v : Value} {depth : Nat} (limit : v.depth ≤ depth)
    (fields : Members) (name : String) (set : Members → σ) :
    ChoiceReads (otherMember depth fields name set) v fun after =>
      after = set (fields.put name v.merged) :=
  ((reads_value limit).map fun v => set (fields.put name v)).congr fun _ => by simp

/-- A reader that ends with a check of what was read, and makes something of it. -/
theorem Json.Reads.finish {read : Reader σ} {whole : Reader β} {v : Value} {holds : σ → Prop}
    {makes : σ → β → Prop} (reads : Reads read v holds)
    (ends : ∀ text b left, whole.answer text = some (b, left) ↔
      ∃ a, read.answer text = some (a, left) ∧ makes a b) :
    Reads whole v fun b => ∃ a, holds a ∧ makes a b := by
  intro space text rest blank form stops b left
  rw [ends]
  constructor
  · rintro ⟨a, read, made⟩
    obtain ⟨held, rfl⟩ := (reads blank form stops a left).mp read
    exact ⟨⟨a, held, made⟩, rfl⟩
  · rintro ⟨⟨a, held, made⟩, rfl⟩
    exact ⟨a, (reads blank form stops a left).mpr ⟨held, rfl⟩, made⟩

theorem seen_finish_iff {γ : Type} {text : List Char} (result : Except ReadError (σ × Rest text))
    (finish : σ → Except ReadError γ) (make : σ → γ → β) (b : β) (left : List Char) :
    seen (result >>= fun found => finish found.1 >>= fun c => pure (make found.1 c, found.2)) =
      some (b, left) ↔
      ∃ a, seen result = some (a, left) ∧ ∃ c, finish a = .ok c ∧ b = make a c := by
  cases result with
  | error fault => exact ⟨nofun, nofun⟩
  | ok found =>
    obtain ⟨a, rest⟩ := found
    change seen (finish a >>= fun c => pure (make a c, rest)) = _ ↔
      ∃ a', some (a, rest.chars) = some (a', left) ∧ ∃ c, finish a' = .ok c ∧ b = make a' c
    cases made : finish a with
    | error fault => simp +contextual [seen, bind, Except.bind, made]
    | ok c =>
      simp only [seen, bind, Except.bind, pure, Except.pure, Option.some.injEq, Prod.mk.injEq]
      constructor
      · rintro ⟨rfl, rfl⟩
        exact ⟨a, ⟨rfl, rfl⟩, c, made, rfl⟩
      · rintro ⟨_, ⟨rfl, rfl⟩, c', other, rfl⟩
        cases made.symm.trans other
        exact ⟨rfl, rfl⟩

/-- The word for a value that is not there, or what `holds` relates to the value. -/
def OrNull (holds : Value → α → Prop) (v : Value) : Option α → Prop
  | none => v = .null
  | some a => holds v a

theorem reads_optional {read : Reader α} {v : Value} {holds : Value → α → Prop}
    (reads : Reads read v (holds v)) (never : ∀ a, ¬holds .null a) :
    Reads (optional read) v (OrNull holds v) := by
  intro space text rest blank form stops found left
  obtain ⟨c, more, split, begins⟩ := form.exists_begins
  rw [optional, answer_token, form.skipSpace_eq blank]
  by_cases absent : v = .null
  · subst absent
    cases form
    change some (none, rest) = some (found, left) ↔ _
    cases found with
    | none => simp [OrNull, @eq_comm _ rest]
    | some a => simp [OrNull, never a]
  · have ne : c ≠ 'n' := by
      rintro rfl
      cases v with
      | null => exact absent rfl
      | bool b => cases b <;> cases begins
      | _ => cases begins
    have some_iff : ∀ found, (∃ a, holds v a ∧ found = some a) ↔ OrNull holds v found := by
      intro found
      cases found <;> simp [OrNull, absent]
    have present := (reads.map some).congr some_iff blank_nil form stops found left
    rw [split] at present ⊢
    refine Iff.trans (Eq.congr_left ?_) present
    exact congrArg seen (if_neg ne)

/-- A record is read as an object unless it is a list. -/
theorem reads_recordOf_object {depth : Nat} {expected : String} {start : σ}
    {choose : Nat → σ → String → Except ReadError (Reader σ)}
    (readers : Nat → List (σ → Reader σ)) {v : Value} {holds : σ → Prop}
    (reads : Reads (objectOf depth expected start choose) v holds)
    (object : v.begins '[' = false) :
    Reads (recordOf depth expected start choose readers) v holds := by
  intro space text rest blank form stops found left
  obtain ⟨c, more, split, begins⟩ := form.exists_begins
  rw [recordOf, answer_token, form.skipSpace_eq blank]
  have ne : (text ++ rest).head? ≠ some '[' := by
    rw [split]
    rintro same
    cases same
    rw [object] at begins
    cases begins
  have present := reads blank_nil form stops found left
  refine Iff.trans (Eq.congr_left ?_) present
  exact congrArg seen (if_neg ne)

theorem reads_recordOf_array {depth : Nat} {expected : String} {start : σ}
    {choose : Nat → σ → String → Except ReadError (Reader σ)}
    {readers : Nat → List (σ → Reader σ)} {items : List Value} {holds : σ → Prop}
    (reads : Reads (opened '[' expected (deeper depth fun depth =>
      places (readers depth) true start)) (.array items) holds) :
    Reads (recordOf depth expected start choose readers) (.array items) holds := by
  intro space text rest blank form stops found left
  obtain ⟨c, more, split, begins⟩ := form.exists_begins
  rw [recordOf, answer_token, form.skipSpace_eq blank]
  have first : (text ++ rest).head? = some '[' := by
    rw [split]
    exact congrArg some (by simpa [Value.begins] using begins)
  have present := reads blank_nil form stops found left
  refine Iff.trans (Eq.congr_left ?_) present
  exact congrArg seen (if_pos first)

/-- A run over a list with a step for each place; the list may end before any of them. -/
def Fills : List (σ → Value → σ → Prop) → σ → List Value → σ → Prop
  | [], before, [], after => after = before
  | [], _, _ :: _, _ => False
  | _ :: _, before, [], after => after = before
  | step :: steps, before, v :: values, after =>
      ∃ between, step before v between ∧ Fills steps between values after

theorem listEnd_close {space : List Char} (blank : Blank space) (text : List Char) :
    ∃ shorter, listEnd (space ++ ']' :: text) = .ok ⟨text, shorter⟩ := by
  have skipped := skipSpace_append_cons blank (by decide : isSpace ']' = false) text
  unfold listEnd
  split
  · next found =>
      rw [skipped] at found
      cases found
  · next found =>
      rw [skipped] at found
      cases found
      exact ⟨length_lt_of_skipSpace skipped, if_pos rfl⟩

theorem listEnd_other {text more : List Char} {c : Char} (starts : skipSpace text = c :: more)
    (opens : c ≠ ']') : ∃ fault, listEnd text = .error fault := by
  unfold listEnd
  split
  · exact ⟨_, rfl⟩
  · next found =>
      rw [starts] at found
      cases found
      rw [if_neg opens]
      split
      · exact ⟨_, rfl⟩
      · exact ⟨_, rfl⟩

theorem seen_places_close (readers : List (σ → Reader σ)) (first : Bool) (state : σ)
    {space : List Char} (blank : Blank space) (text : List Char) :
    seen (places readers first state (space ++ ']' :: text)) = some (state, text) := by
  cases readers with
  | nil =>
    obtain ⟨shorter, closed⟩ := listEnd_close blank text
    rw [places, closed]
    rfl
  | cons place readers =>
    obtain ⟨shorter, closed⟩ := Bracket.square.next_close first blank text
    change Bracket.square.next first (space ++ ']' :: text) = _ at closed
    rw [places, closed]
    rfl

theorem seen_places_item (place : σ → Reader σ) (readers : List (σ → Reader σ)) (first : Bool)
    (state : σ) {separator text more : List Char} {c : Char}
    (separates : Separator first separator) (starts : skipSpace text = c :: more)
    (opens : c ≠ Bracket.square.close) :
    seen (places (place :: readers) first state (separator ++ text)) =
      ((place state).answer text).bind fun found =>
        seen (places readers false found.1 found.2) := by
  obtain ⟨noLonger, next⟩ := Bracket.square.next_item first separates starts opens
  rw [places, next]
  refine seen_bind (place state text) _
    (fun after left => seen (places readers false after left)) ?_
  intro after rest
  exact seen_move (places readers false after rest.chars)
    (fun last => (rest.trans last).within noLonger) fun _ => rfl

theorem seen_places_iff {readers : List (σ → Reader σ)} {steps : List (σ → Value → σ → Prop)}
    {values : List Value}
    (each : List.Forall₂ (fun reader step => ∀ v ∈ values, ∀ before,
      Reads (reader before) v (step before v)) readers steps)
    {first : Bool} {text : List Char} (form : ItemsForm first values text) (rest : List Char)
    (before after : σ) (left : List Char) :
    seen (places readers first before (text ++ rest)) = some (after, left) ↔
      Fills steps before values after ∧ left = rest := by
  induction values generalizing readers steps first text before after left with
  | nil =>
    cases form with | close blank =>
    have closed : Fills steps before [] after ↔ after = before := by cases steps <;> rfl
    rw [List.append_assoc]
    refine (Eq.congr_left (seen_places_close readers first before blank rest)).trans ?_
    rw [closed, Option.some.injEq, Prod.mk.injEq, eq_comm, @eq_comm _ rest]
  | cons v values ih =>
    cases each with
    | nil =>
      obtain ⟨c, more, starts, opens⟩ := form.starts rest
      obtain ⟨fault, refused⟩ := listEnd_other starts opens
      rw [places, refused]
      exact ⟨nofun, fun given => given.1.elim⟩
    | @cons reader step readers steps here others =>
      cases form with
      | @item _ _ _ separator space text more separates blank form tail =>
        obtain ⟨c, body, split, begins⟩ := form.exists_begins
        have starts : skipSpace (space ++ (text ++ (more ++ rest))) =
            c :: (body ++ (more ++ rest)) := by
          rw [form.skipSpace_eq blank, split, List.cons_append]
        have joined : separator ++ (space ++ (text ++ more)) ++ rest =
            separator ++ (space ++ (text ++ (more ++ rest))) := by simp
        rw [joined, seen_places_item reader readers first before separates starts
          (Value.ne_close_of_begins begins .square)]
        exact bind_eq_some_iff_exists (fun between left => seen (places readers false between left))
          (here v List.mem_cons_self before blank form ((tail.ends rest).endsBefore v))
          (ih (others.imp fun _ _ reads w member => reads w (List.mem_cons_of_mem _ member)) tail)
          after left

end DecoderTables
