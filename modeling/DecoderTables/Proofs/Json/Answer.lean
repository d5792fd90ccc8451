import DecoderTables.Document.Reader

/-!
What a reader answers: the value and the text it leaves, or nothing. The proof that the rest is
shorter and the fault of a failure are left out, so that answers can be compared and put together.
-/

namespace DecoderTables.Json

variable {α β σ : Type}

def seen {text : List Char} (result : Except ReadError (α × Rest text)) :
    Option (α × List Char) :=
  match result with
  | .ok (a, rest) => some (a, rest.chars)
  | .error _ => none

def Reader.answer (read : Reader α) (text : List Char) : Option (α × List Char) :=
  seen (read text)

theorem seen_eq_some_iff {text left : List Char} (result : Except ReadError (α × Rest text))
    (a : α) : seen result = some (a, left) ↔ ∃ shorter, result = .ok (a, ⟨left, shorter⟩) := by
  cases result with
  | ok found =>
    obtain ⟨b, chars, shorter⟩ := found
    simp only [seen, Option.some.injEq, Prod.mk.injEq, Except.ok.injEq, Rest.mk.injEq]
    exact ⟨fun same => ⟨same.2 ▸ shorter, same⟩, fun given => given.2⟩
  | error fault => simp [seen]

theorem seen_bind {text inner : List Char} (result : Except ReadError (α × Rest inner))
    (next : α × Rest inner → Except ReadError (β × Rest text))
    (answer : α → List Char → Option (β × List Char))
    (each : ∀ a rest, seen (next (a, rest)) = answer a rest.chars) :
    seen (result >>= next) = (seen result).bind fun found => answer found.1 found.2 := by
  cases result with
  | ok found => exact each found.1 found.2
  | error fault => rfl

theorem seen_map {text inner : List Char} (result : Except ReadError (α × Rest inner)) (f : α → β)
    (move : Rest inner → Rest text) (keeps : ∀ rest, (move rest).chars = rest.chars) :
    seen (result >>= fun found => match found with | (a, rest) => pure (f a, move rest)) =
      (seen result).map fun found => (f found.1, found.2) := by
  cases result with
  | ok found => exact congrArg (fun left => some (f found.1, left)) (keeps found.2)
  | error fault => rfl

theorem seen_move {text inner : List Char} (result : Except ReadError (α × Rest inner))
    (move : Rest inner → Rest text) (keeps : ∀ rest, (move rest).chars = rest.chars) :
    seen (result >>= fun found => match found with | (a, rest) => pure (a, move rest)) =
      seen result :=
  (seen_map result id move keeps).trans (by simp)

theorem answer_map (f : α → β) (read : Reader α) (text : List Char) :
    (read.map f).answer text = (read.answer text).map fun found => (f found.1, found.2) :=
  seen_map (read text) f id fun _ => rfl

theorem answer_token (read : Reader α) (text : List Char) :
    (token read).answer text = read.answer (skipSpace text) :=
  seen_move (read (skipSpace text)) (·.within (length_skipSpace_le text)) fun _ => rfl

/-- White space, perhaps none. -/
def Blank (space : List Char) : Prop :=
  ∀ c ∈ space, isSpace c = true

theorem blank_nil : Blank [] :=
  nofun

theorem skipSpace_append {space : List Char} (blank : Blank space) (text : List Char) :
    skipSpace (space ++ text) = skipSpace text :=
  List.dropWhile_append_of_pos blank

theorem skipSpace_cons {c : Char} (solid : isSpace c = false) (text : List Char) :
    skipSpace (c :: text) = c :: text :=
  List.dropWhile_cons_of_neg (by simp [solid])

theorem skipSpace_append_cons {space : List Char} (blank : Blank space) {c : Char}
    (solid : isSpace c = false) (text : List Char) :
    skipSpace (space ++ c :: text) = c :: text := by
  rw [skipSpace_append blank, skipSpace_cons solid]

theorem colon_eq {space : List Char} (blank : Blank space) (text : List Char) :
    ∃ shorter, colon (space ++ ':' :: text) = .ok ⟨text, shorter⟩ := by
  have skipped := skipSpace_append_cons blank (by decide : isSpace ':' = false) text
  unfold colon
  split
  · next found =>
      rw [skipped] at found
      cases found
  · next c more found =>
      rw [skipped] at found
      cases found
      exact ⟨length_lt_of_skipSpace skipped, rfl⟩

/-- The answer of a reader that is chosen by the name of a member, if one is. -/
def chosen (choice : Except ReadError (Reader α)) (text : List Char) : Option (α × List Char) :=
  match choice with
  | .ok read => read.answer text
  | .error _ => none

theorem answer_member (choose : String → Except ReadError (Reader α)) {text left : List Char}
    {name : String} (named : memberName.answer text = some (name, left)) {rest : Rest left}
    (separated : colon left = .ok rest) :
    (member choose).answer text = chosen (choose name) rest.chars := by
  obtain ⟨shorter, read⟩ := (seen_eq_some_iff _ _).mp named
  unfold Reader.answer member
  rw [read]
  change seen (choose name >>= fun read => colon left >>= _) = _
  rw [separated]
  cases choose name with
  | error fault => rfl
  | ok read =>
    exact seen_move (read rest.chars) (Rest.trans (Rest.trans ⟨left, shorter⟩ rest)) fun _ => rfl

theorem answer_opened (opening : Char) (expected : String) (body : Reader α) (text : List Char) :
    (opened opening expected body).answer text =
      match skipSpace text with
      | [] => none
      | c :: more => if c = opening then body.answer more else none := by
  rw [opened, answer_token]
  cases skipSpace text with
  | nil => rfl
  | cons c more =>
    simp only [Reader.answer]
    by_cases same : c = opening
    · rw [if_pos same, if_pos same]
      exact seen_move (body more) (Rest.afterCons c) fun _ => rfl
    · rw [if_neg same, if_neg same]
      rfl

/-- What stands in front of an item: nothing, or a comma after the item before it. -/
def Separator (first : Bool) (text : List Char) : Prop :=
  match first with
  | true => text = []
  | false => ∃ space, Blank space ∧ text = space ++ [',']

namespace Bracket

theorem isSpace_close (bracket : Bracket) : isSpace bracket.close = false := by
  cases bracket <;> rfl

theorem comma_ne_close (bracket : Bracket) : ',' ≠ bracket.close := by
  cases bracket <;> decide

theorem next_close (bracket : Bracket) (first : Bool) {space : List Char} (blank : Blank space)
    (text : List Char) : ∃ shorter, bracket.next first (space ++ bracket.close :: text) =
      .ok (.closed ⟨text, shorter⟩) := by
  have skipped := skipSpace_append_cons blank bracket.isSpace_close text
  unfold next
  split
  · next found =>
      rw [skipped] at found
      cases found
  · next c more found =>
      rw [skipped] at found
      cases found
      exact ⟨length_lt_of_skipSpace skipped, if_pos rfl⟩

theorem next_item (bracket : Bracket) (first : Bool) {separator text more : List Char} {c : Char}
    (separates : Separator first separator) (starts : skipSpace text = c :: more)
    (opens : c ≠ bracket.close) : ∃ noLonger, bracket.next first (separator ++ text) =
      .ok (.item ⟨text, noLonger⟩) := by
  cases first with
  | true =>
    obtain rfl : separator = [] := separates
    unfold next
    split
    · next found =>
        rw [List.nil_append, starts] at found
        cases found
    · next d rest found =>
        rw [List.nil_append, starts] at found
        cases found
        rw [if_neg opens, if_pos rfl]
        exact ⟨Nat.le_refl _, rfl⟩
  | false =>
    obtain ⟨space, blank, rfl⟩ := separates
    have skipped : skipSpace (space ++ [','] ++ text) = ',' :: text := by
      rw [List.append_assoc]
      exact skipSpace_append_cons blank (by decide) text
    unfold next
    split
    · next found =>
        rw [skipped] at found
        cases found
    · next d rest found =>
        rw [skipped] at found
        cases found
        have follows : (skipSpace text).head? ≠ some bracket.close := by
          rw [starts]
          simpa using opens
        rw [if_neg bracket.comma_ne_close, if_neg (by decide), if_pos rfl, if_neg follows]
        exact ⟨Nat.le_of_lt (length_lt_of_skipSpace skipped), rfl⟩

end Bracket

theorem seen_foldItems_close (bracket : Bracket) (item : σ → Reader σ) (first : Bool) (state : σ)
    {space : List Char} (blank : Blank space) (text : List Char) :
    seen (foldItems bracket item first state (space ++ bracket.close :: text)) =
      some (state, text) := by
  obtain ⟨shorter, closed⟩ := bracket.next_close first blank text
  rw [foldItems, closed]
  rfl

theorem seen_foldItems_item (bracket : Bracket) (item : σ → Reader σ) (first : Bool) (state : σ)
    {separator text more : List Char} {c : Char} (separates : Separator first separator)
    (starts : skipSpace text = c :: more) (opens : c ≠ bracket.close) :
    seen (foldItems bracket item first state (separator ++ text)) =
      ((item state).answer text).bind fun found =>
        seen (foldItems bracket item false found.1 found.2) := by
  obtain ⟨noLonger, next⟩ := bracket.next_item first separates starts opens
  rw [foldItems, next]
  refine seen_bind (item state text) _
    (fun after left => seen (foldItems bracket item false after left)) ?_
  intro after rest
  exact seen_move (foldItems bracket item false after rest.chars)
    (fun last => (rest.trans last).within noLonger) fun _ => rfl

end DecoderTables.Json
