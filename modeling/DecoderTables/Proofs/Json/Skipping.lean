import DecoderTables.Json.Reader.Ignored
import DecoderTables.Proofs.Json.Reading

/-!
Values that are only checked. Skipping a value goes on with what stands behind it, inside the
brackets that were open before.
-/

namespace DecoderTables.Json

/-- The text that is left, or nothing. -/
def restChars {text : List Char} (result : Except ReadError (Rest text)) : Option (List Char) :=
  match result with
  | .ok rest => some rest.chars
  | .error _ => none

def tailChars {text : List Char} (result : Except ReadError (Tail text)) : Option (List Char) :=
  match result with
  | .ok tail => some tail.chars
  | .error _ => none

theorem restChars_bind {text inner : List Char} (first : Except ReadError (Rest inner))
    (next : Rest inner → Except ReadError (Rest text)) (after : List Char → Option (List Char))
    (each : ∀ rest, restChars (next rest) = after rest.chars) :
    restChars (first >>= next) = (restChars first).bind after := by
  cases first with
  | ok rest => exact each rest
  | error fault => rfl

theorem tailChars_item {text inner : List Char} (result : Except ReadError (Rest inner))
    (move : Rest inner → Tail text) (keeps : ∀ rest, (move rest).chars = rest.chars) :
    tailChars (result >>= fun rest => pure (move rest)) = restChars result := by
  cases result with
  | ok rest => exact congrArg some (keeps rest)
  | error fault => rfl

theorem tailChars_member {text inner : List Char} (first : Except ReadError (Rest inner))
    (next : (text : List Char) → Except ReadError (Rest text))
    (move : (name : Rest inner) → Rest name.chars → Tail text)
    (keeps : ∀ name rest, (move name rest).chars = rest.chars) :
    tailChars (first >>= fun name => next name.chars >>= fun rest => pure (move name rest)) =
      (restChars first).bind fun left => restChars (next left) := by
  cases first with
  | ok name => exact tailChars_item (next name.chars) (move name) (keeps name)
  | error fault => rfl

theorem skipScalar_of_form {v : Value} {text : List Char} (form : v.Form text)
    (scalar : ∀ c, v.begins c = true → Bracket.ofOpening? c = none) {rest : List Char}
    (ends : v.EndsBefore rest) {c : Char} {more : List Char} (split : text = c :: more) :
    restChars (skipScalar c (more ++ rest)) = some rest := by
  obtain ⟨_, _, same, begins⟩ := form.exists_begins
  cases split.symm.trans same
  cases form with
  | null => cases split; rfl
  | yes => cases split; rfl
  | no => cases split; rfl
  | integer n =>
    have scan := exists_scan_integer .invalidNumber n ends
    rw [split] at scan
    obtain ⟨numeral, shorter, scanned, _⟩ := scan
    have ne : ∀ other, (other == '-' || other.isDigit) = false → c ≠ other := by
      rintro other wrong rfl
      exact absurd begins (by rw [Value.begins, wrong]; decide)
    unfold skipScalar
    rw [if_neg (ne '"' rfl), if_neg (ne 'n' rfl), if_neg (ne 't' rfl), if_neg (ne 'f' rfl),
      if_pos (by simpa [Value.begins] using begins)]
    change restChars (Numeral.scan .invalidNumber (c :: more ++ rest) >>= _) = _
    rw [scanned]
    rfl
  | string form =>
    obtain @⟨body, form⟩ := form
    cases split
    obtain ⟨shorter, skipped⟩ := skipString_of_form form rest
    have joined : body ++ ['"'] ++ rest = body ++ '"' :: rest := by simp
    rw [joined, skipScalar, if_pos rfl, skipped]
    rfl
  | array form => exact absurd (scalar '[' rfl) (by decide)
  | object form => exact absurd (scalar '\x7b' rfl) (by decide)

theorem skipValue_scalar {text more : List Char} {c : Char} (starts : skipSpace text = c :: more)
    (scalar : Bracket.ofOpening? c = none) (outer : List Bracket) :
    restChars (skipValue outer text) =
      (restChars (skipScalar c more)).bind fun left =>
        tailChars (skipFollowing false outer left) := by
  unfold skipValue
  split
  · next found =>
      rw [starts] at found
      cases found
  · next found =>
      rw [starts] at found
      cases found
      split
      · next opening =>
          rw [scalar] at opening
          cases opening
      · refine restChars_bind (skipScalar c more) _ _ fun rest => ?_
        cases skipFollowing false outer rest.chars <;> rfl

theorem skipValue_opening {text more : List Char} {c : Char} {bracket : Bracket}
    (starts : skipSpace text = c :: more) (opens : Bracket.ofOpening? c = some bracket)
    (outer : List Bracket) :
    restChars (skipValue outer text) = tailChars (skipFollowing true (bracket :: outer) more) := by
  rw [skipValue]
  split
  · next found =>
      rw [starts] at found
      cases found
  · next found =>
      rw [starts] at found
      cases found
      split
      · next opening =>
          rw [opens] at opening
          cases opening
          cases skipFollowing true (bracket :: outer) more <;> rfl
      · next opening =>
          rw [opens] at opening
          cases opening

theorem skipFollowing_close {bracket : Bracket} {text more : List Char}
    (starts : skipSpace text = bracket.close :: more) (first : Bool) (outer : List Bracket) :
    tailChars (skipFollowing first (bracket :: outer) text) =
      tailChars (skipFollowing false outer more) := by
  rw [skipFollowing]
  split
  · next found =>
      rw [starts] at found
      cases found
  · next found =>
      rw [starts] at found
      cases found
      rw [if_pos rfl]
      cases skipFollowing false outer more <;> rfl

/-- What is left of the text after one more item, and all that stands behind it. -/
def skipItem (bracket : Bracket) (outer : List Bracket) (text : List Char) :
    Option (List Char) :=
  match bracket with
  | .square => restChars (skipValue (.square :: outer) text)
  | .curly =>
      (restChars (skipName text)).bind fun left => restChars (skipValue (.curly :: outer) left)

theorem skipFollowing_item {bracket : Bracket} {text more : List Char} {c : Char} {first : Bool}
    {separator : List Char} (separates : Separator first separator)
    (starts : skipSpace text = c :: more) (opens : c ≠ bracket.close) (outer : List Bracket) :
    tailChars (skipFollowing first (bracket :: outer) (separator ++ text)) =
      skipItem bracket outer text := by
  cases first with
  | true =>
    obtain rfl : separator = [] := separates
    rw [List.nil_append, skipFollowing]
    split
    · next found =>
        rw [starts] at found
        cases found
    · next found =>
        rw [starts] at found
        cases found
        rw [if_neg opens]
        cases bracket with
        | square => exact tailChars_item (skipValue (.square :: outer) text) _ fun _ => rfl
        | curly =>
          exact tailChars_member (skipName text) (skipValue (.curly :: outer)) _ fun _ _ => rfl
  | false =>
    obtain ⟨space, blank, rfl⟩ := separates
    have skipped : skipSpace (space ++ [','] ++ text) = ',' :: text := by
      rw [List.append_assoc]
      exact skipSpace_append_cons blank (by decide) text
    rw [skipFollowing]
    split
    · next found =>
        rw [skipped] at found
        cases found
    · next found =>
        rw [skipped] at found
        cases found
        rw [if_neg bracket.comma_ne_close]
        cases bracket with
        | square => exact tailChars_item (skipValue (.square :: outer) text) _ fun _ => rfl
        | curly =>
          exact tailChars_member (skipName text) (skipValue (.curly :: outer)) _ fun _ _ => rfl

theorem skipName_of_form {name : String} {space text before : List Char} (blank : Blank space)
    (form : QuotedForm name text) (blankBefore : Blank before) (rest : List Char) :
    restChars (skipName (space ++ (text ++ (before ++ ':' :: rest)))) = some rest := by
  obtain @⟨body, form⟩ := form
  have joined : '"' :: (body ++ ['"']) ++ (before ++ ':' :: rest) =
      '"' :: (body ++ '"' :: (before ++ ':' :: rest)) := by simp
  obtain ⟨_, skipped⟩ := skipString_of_form form (before ++ ':' :: rest)
  obtain ⟨_, separated⟩ := colon_eq blankBefore rest
  have starts := skipSpace_append_cons blank (by decide : isSpace '"' = false)
    (body ++ '"' :: (before ++ ':' :: rest))
  rw [joined]
  unfold skipName
  split
  · next found =>
      rw [starts] at found
      cases found
  · next found =>
      rw [starts] at found
      cases found
      rw [if_pos rfl, skipped]
      change restChars (colon (before ++ ':' :: rest) >>= _) = _
      rw [separated]
      rfl

/-- A value is skipped inside any brackets, and the skipping goes on behind it. -/
def Skips (v : Value) : Prop :=
  ∀ ⦃space text rest : List Char⦄, Blank space → v.Form text → v.EndsBefore rest →
    ∀ outer, restChars (skipValue outer (space ++ (text ++ rest))) =
      tailChars (skipFollowing false outer rest)

theorem skipFollowing_items {items : List Value} (each : ∀ item ∈ items, Skips item)
    {first : Bool} {text : List Char} (form : ItemsForm first items text) (rest : List Char)
    (outer : List Bracket) :
    tailChars (skipFollowing first (.square :: outer) (text ++ rest)) =
      tailChars (skipFollowing false outer rest) := by
  induction items generalizing first text with
  | nil =>
    cases form with | close blank =>
    rw [List.append_assoc]
    exact skipFollowing_close (skipSpace_append_cons blank (by decide) rest) first outer
  | cons v items ih =>
    obtain ⟨skips, eachOther⟩ := List.forall_mem_cons.mp each
    cases form with
    | @item _ _ _ separator space text more separates blank form others =>
      obtain ⟨c, tail, starts, begins⟩ := form.exists_starts blank (more ++ rest)
      rw [item_append, skipFollowing_item separates starts (Value.ne_close_of_begins begins .square),
        skipItem, skips blank form ((others.ends rest).endsBefore v), ih eachOther others]

theorem skipFollowing_members {members : Members} (each : ∀ m ∈ members, Skips m.2)
    {first : Bool} {text : List Char} (form : MembersForm first members text) (rest : List Char)
    (outer : List Bracket) :
    tailChars (skipFollowing first (.curly :: outer) (text ++ rest)) =
      tailChars (skipFollowing false outer rest) := by
  induction members generalizing first text with
  | nil =>
    cases form with | close blank =>
    rw [List.append_assoc]
    exact skipFollowing_close (skipSpace_append_cons blank (by decide) rest) first outer
  | cons m members ih =>
    obtain ⟨skips, eachOther⟩ := List.forall_mem_cons.mp each
    cases form with
    | @member _ name v _ separator space nameText colonBefore colonAfter text more separates blank
        nameForm blankBefore blankAfter form others =>
      obtain ⟨body, starts⟩ := nameForm.exists_starts blank
        (colonBefore ++ ':' :: (colonAfter ++ (text ++ (more ++ rest))))
      rw [member_append, skipFollowing_item separates starts (by decide), skipItem,
        skipName_of_form blank nameForm blankBefore, Option.bind_some,
        skips blankAfter form ((others.ends rest).endsBefore v), ih eachOther others]

theorem skips_scalar {v : Value}
    (scalar : ∀ c, v.begins c = true → Bracket.ofOpening? c = none) : Skips v := by
  intro space text rest blank form ends outer
  obtain ⟨c, more, split, begins⟩ := form.exists_begins
  have starts : skipSpace (space ++ (text ++ rest)) = c :: (more ++ rest) := by
    rw [form.skipSpace_eq blank, split, List.cons_append]
  rw [skipValue_scalar starts (scalar c begins),
    skipScalar_of_form form scalar ends split, Option.bind_some]

theorem ofOpening?_eq_none {c : Char} (square : c ≠ '[') (curly : c ≠ '\x7b') :
    Bracket.ofOpening? c = none := by
  rw [Bracket.ofOpening?, if_neg square, if_neg curly]

theorem skips (v : Value) : Skips v := by
  induction v using Value.inductionOn with
  | array items each =>
    intro space text rest blank form _ outer
    have starts := form.skipSpace_eq blank rest
    cases form with | array form =>
    exact (skipValue_opening starts rfl outer).trans (skipFollowing_items each form rest outer)
  | object members each =>
    intro space text rest blank form _ outer
    have starts := form.skipSpace_eq blank rest
    cases form with | object form =>
    exact (skipValue_opening starts rfl outer).trans (skipFollowing_members each form rest outer)
  | null => exact skips_scalar (by simp [Value.begins, Bracket.ofOpening?])
  | bool b => exact skips_scalar (by cases b <;> simp [Value.begins, Bracket.ofOpening?])
  | string s => exact skips_scalar (by simp [Value.begins, Bracket.ofOpening?])
  | number n =>
    refine skips_scalar fun c begins => ofOpening?_eq_none ?_ ?_
    · rintro rfl
      cases begins
    · rintro rfl
      cases begins

theorem answer_ignored (text : List Char) :
    ignored.answer text = (restChars (skipValue [] text)).map fun left => ((), left) := by
  unfold Reader.answer ignored
  cases skipValue [] text <;> rfl

/-- A value of any depth is accepted where its data do not matter. -/
theorem reads_ignored (v : Value) : Reads ignored v fun _ => True := by
  intro space text rest blank form ends a left
  have skipped : restChars (skipValue [] (space ++ (text ++ rest))) = some rest := by
    rw [skips v blank form ends, skipFollowing]
    rfl
  rw [answer_ignored, skipped]
  simp [@eq_comm _ rest]

end DecoderTables.Json
