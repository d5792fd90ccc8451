import DecoderTables.Proofs.Json.Reading
import DecoderTables.Proofs.Json.Writing

/-!
A text is a text of one value only, also as the beginning of a longer text. The first character
tells the kind of the value, and the token behind each part tells whether another part follows.
-/

namespace DecoderTables.Json

/-- The kinds of values that can begin with different characters. -/
def Value.kind : Value → Nat
  | .null => 0
  | .bool true => 1
  | .bool false => 2
  | .number _ => 3
  | .string _ => 4
  | .array _ => 5
  | .object _ => 6

theorem Value.kind_eq_of_begins {v w : Value} {c : Char} (first : v.begins c = true)
    (second : w.begins c = true) : v.kind = w.kind := by
  rcases v with _ | (_ | _) | _ | _ | _ | _ <;> rcases w with _ | (_ | _) | _ | _ | _ | _ <;>
    first
      | rfl
      | (obtain rfl := eq_of_beq first; cases second)
      | (obtain rfl := eq_of_beq second; cases first)

theorem Separator.unique {first : Bool} {separator other text rest : List Char}
    (separates : Separator first separator) (otherwise : Separator first other)
    (same : separator ++ text = other ++ rest) : text = rest := by
  cases first with
  | true =>
    obtain rfl : separator = [] := separates
    obtain rfl : other = [] := otherwise
    exact same
  | false =>
    obtain ⟨space, blank, rfl⟩ := separates
    obtain ⟨otherSpace, otherBlank, rfl⟩ := otherwise
    rw [List.append_assoc, List.append_assoc] at same
    have skipped : skipSpace (space ++ ([','] ++ text)) =
        skipSpace (otherSpace ++ ([','] ++ rest)) := congrArg skipSpace same
    rw [skipSpace_append blank, skipSpace_append otherBlank] at skipped
    exact (List.cons.inj skipped).2

theorem QuotedForm.unique {s t : String} {text other rest left : List Char}
    (form : QuotedForm s text) (otherForm : QuotedForm t other)
    (same : text ++ rest = other ++ left) : s = t ∧ rest = left := by
  have first := answer_memberName blank_nil form rest
  rw [same, answer_memberName blank_nil otherForm left] at first
  obtain ⟨names, rests⟩ := Prod.mk.inj (Option.some.inj first)
  exact ⟨names.symm, rests.symm⟩

theorem answer_numberText (n : Integer) {rest : List Char} (ends : Ends rest) :
    numberText.answer ((Number.integer n).text ++ rest) = some (.integer n, rest) :=
  (seen_eq_some_iff _ _).mpr (numberText_integer n ends)

theorem integer_unique {m n : Integer} {rest left : List Char} (ends : Ends rest)
    (otherEnds : Ends left)
    (same : (Number.integer m).text ++ rest = (Number.integer n).text ++ left) :
    m = n ∧ rest = left := by
  have first := answer_numberText m ends
  rw [same, answer_numberText n otherEnds] at first
  obtain ⟨numbers, rests⟩ := Prod.mk.inj (Option.some.inj first)
  exact ⟨(Number.integer.inj numbers).symm, rests.symm⟩

/-- A value that no other value has a text in common with, whatever stands behind the texts. -/
def Unambiguous (v : Value) : Prop :=
  ∀ ⦃w : Value⦄ ⦃text other rest left : List Char⦄, v.Form text → w.Form other →
    v.EndsBefore rest → w.EndsBefore left → text ++ rest = other ++ left → v = w ∧ rest = left

theorem ItemsForm.skipSpace_nil {first : Bool} {text : List Char} (form : ItemsForm first [] text)
    (rest : List Char) : skipSpace (text ++ rest) = ']' :: rest := by
  cases form with | close blank =>
  rw [List.append_assoc]
  exact skipSpace_append_cons blank (by decide) rest

theorem MembersForm.skipSpace_nil {first : Bool} {text : List Char}
    (form : MembersForm first [] text) (rest : List Char) :
    skipSpace (text ++ rest) = '\x7d' :: rest := by
  cases form with | close blank =>
  rw [List.append_assoc]
  exact skipSpace_append_cons blank (by decide) rest

theorem MembersForm.starts {first : Bool} {m : String × Value} {members : Members}
    {text : List Char} (form : MembersForm first (m :: members) text) (rest : List Char) :
    ∃ c more, skipSpace (text ++ rest) = c :: more ∧ c ≠ '\x7d' := by
  cases form with
  | @member _ name v _ separator space nameText before after text more separates blank nameForm =>
    cases first with
    | true =>
      obtain rfl : separator = [] := separates
      obtain ⟨tail, starts⟩ := nameForm.exists_starts blank
        (before ++ ':' :: (after ++ (text ++ (more ++ rest))))
      rw [member_append, List.nil_append]
      exact ⟨'"', tail, starts, by decide⟩
    | false =>
      obtain ⟨before, blank, rfl⟩ := separates
      rw [member_append, List.append_assoc, List.singleton_append]
      exact ⟨',', _, skipSpace_append_cons blank (by decide) _, by decide⟩

/-- The bracket tells whether another item follows. -/
theorem ItemsForm.eq_nil_iff {first : Bool} {items : List Value} {text : List Char}
    (form : ItemsForm first items text) (rest : List Char) :
    items = [] ↔ (skipSpace (text ++ rest)).head? = some ']' := by
  cases items with
  | nil => simp [form.skipSpace_nil]
  | cons v items =>
    obtain ⟨c, more, starts, opens⟩ := form.starts rest
    simp [starts, opens]

theorem MembersForm.eq_nil_iff {first : Bool} {members : Members} {text : List Char}
    (form : MembersForm first members text) (rest : List Char) :
    members = [] ↔ (skipSpace (text ++ rest)).head? = some '\x7d' := by
  cases members with
  | nil => simp [form.skipSpace_nil]
  | cons m members =>
    obtain ⟨c, more, starts, opens⟩ := form.starts rest
    simp [starts, opens]

theorem items_unique {items others : List Value} (each : ∀ v ∈ items, Unambiguous v)
    {first : Bool} {text other rest left : List Char} (form : ItemsForm first items text)
    (otherForm : ItemsForm first others other) (same : text ++ rest = other ++ left) :
    items = others ∧ rest = left := by
  induction items generalizing others first text other with
  | nil =>
    obtain rfl := (otherForm.eq_nil_iff left).mpr (same ▸ (form.eq_nil_iff rest).mp rfl)
    have skipped := congrArg skipSpace same
    rw [form.skipSpace_nil, otherForm.skipSpace_nil] at skipped
    exact ⟨rfl, (List.cons.inj skipped).2⟩
  | cons v items ih =>
    cases others with
    | nil => cases (form.eq_nil_iff rest).mpr (same ▸ (otherForm.eq_nil_iff left).mp rfl)
    | cons w others =>
      obtain ⟨unique, eachOther⟩ := List.forall_mem_cons.mp each
      cases form with
      | @item _ _ _ separator space text more separates blank form tail =>
        cases otherForm with
        | @item _ _ _ otherSeparator otherSpace otherText otherMore otherSeparates otherBlank
            otherForm otherTail =>
          rw [item_append, item_append] at same
          have values := congrArg skipSpace (separates.unique otherSeparates same)
          rw [form.skipSpace_eq blank, otherForm.skipSpace_eq otherBlank] at values
          obtain ⟨rfl, behind⟩ := unique form otherForm ((tail.ends rest).endsBefore v)
            ((otherTail.ends left).endsBefore w) values
          obtain ⟨rfl, rests⟩ := ih eachOther tail otherTail behind
          exact ⟨rfl, rests⟩

theorem members_unique {members others : Members} (each : ∀ m ∈ members, Unambiguous m.2)
    {first : Bool} {text other rest left : List Char} (form : MembersForm first members text)
    (otherForm : MembersForm first others other) (same : text ++ rest = other ++ left) :
    members = others ∧ rest = left := by
  induction members generalizing others first text other with
  | nil =>
    obtain rfl := (otherForm.eq_nil_iff left).mpr (same ▸ (form.eq_nil_iff rest).mp rfl)
    have skipped := congrArg skipSpace same
    rw [form.skipSpace_nil, otherForm.skipSpace_nil] at skipped
    exact ⟨rfl, (List.cons.inj skipped).2⟩
  | cons m members ih =>
    cases others with
    | nil => cases (form.eq_nil_iff rest).mpr (same ▸ (otherForm.eq_nil_iff left).mp rfl)
    | cons n others =>
      obtain ⟨unique, eachOther⟩ := List.forall_mem_cons.mp each
      cases form with
      | @member _ name v _ separator space nameText before after text more separates blank nameForm
          blankBefore blankAfter form tail =>
        cases otherForm with
        | @member _ otherName w _ otherSeparator otherSpace otherNameText otherBefore otherAfter
            otherText otherMore otherSeparates otherBlank otherNameForm otherBlankBefore
            otherBlankAfter otherForm otherTail =>
          rw [member_append, member_append] at same
          have names := congrArg skipSpace (separates.unique otherSeparates same)
          rw [nameForm.skipSpace_eq blank, otherNameForm.skipSpace_eq otherBlank] at names
          obtain ⟨rfl, colons⟩ := nameForm.unique otherNameForm names
          have colons := congrArg skipSpace colons
          rw [skipSpace_append_cons blankBefore (by decide),
            skipSpace_append_cons otherBlankBefore (by decide)] at colons
          have values := congrArg skipSpace (List.cons.inj colons).2
          rw [form.skipSpace_eq blankAfter, otherForm.skipSpace_eq otherBlankAfter] at values
          obtain ⟨rfl, behind⟩ := unique form otherForm ((tail.ends rest).endsBefore v)
            ((otherTail.ends left).endsBefore w) values
          obtain ⟨rfl, rests⟩ := ih eachOther tail otherTail behind
          exact ⟨rfl, rests⟩

theorem Value.Form.kind_eq {v w : Value} {text other rest left : List Char} (form : v.Form text)
    (otherForm : w.Form other) (same : text ++ rest = other ++ left) : v.kind = w.kind := by
  obtain ⟨c, more, rfl, begins⟩ := form.exists_begins
  obtain ⟨d, otherMore, rfl, otherBegins⟩ := otherForm.exists_begins
  obtain ⟨rfl, _⟩ := List.cons.inj same
  exact Value.kind_eq_of_begins begins otherBegins

/-- No text is the beginning of texts of two values. -/
theorem unambiguous (v : Value) : Unambiguous v := by
  induction v using Value.inductionOn with
  | null =>
    intro w text other rest left form otherForm ends otherEnds same
    have kinds := form.kind_eq otherForm same
    cases form with | null =>
    cases otherForm with
    | null => exact ⟨rfl, List.append_cancel_left same⟩
    | _ => cases kinds
  | bool b =>
    intro w text other rest left form otherForm ends otherEnds same
    have kinds := form.kind_eq otherForm same
    cases form with
    | yes =>
      cases otherForm with
      | yes => exact ⟨rfl, List.append_cancel_left same⟩
      | _ => cases kinds
    | no =>
      cases otherForm with
      | no => exact ⟨rfl, List.append_cancel_left same⟩
      | _ => cases kinds
  | number n =>
    intro w text other rest left form otherForm ends otherEnds same
    have kinds := form.kind_eq otherForm same
    cases form with | integer n =>
    cases otherForm with
    | integer m =>
      obtain ⟨rfl, rests⟩ := integer_unique ends otherEnds same
      exact ⟨rfl, rests⟩
    | _ => cases kinds
  | string s =>
    intro w text other rest left form otherForm ends otherEnds same
    have kinds := form.kind_eq otherForm same
    cases form with | string form =>
    cases otherForm with
    | string otherForm =>
      obtain ⟨rfl, rests⟩ := form.unique otherForm same
      exact ⟨rfl, rests⟩
    | _ => cases kinds
  | array items each =>
    intro w text other rest left form otherForm ends otherEnds same
    have kinds := form.kind_eq otherForm same
    cases form with | array form =>
    cases otherForm with
    | array otherForm =>
      obtain ⟨rfl, rests⟩ := items_unique each form otherForm (List.cons.inj same).2
      exact ⟨rfl, rests⟩
    | _ => cases kinds
  | object members each =>
    intro w text other rest left form otherForm ends otherEnds same
    have kinds := form.kind_eq otherForm same
    cases form with | object form =>
    cases otherForm with
    | object otherForm =>
      obtain ⟨rfl, rests⟩ := members_unique each form otherForm (List.cons.inj same).2
      exact ⟨rfl, rests⟩
    | _ => cases kinds

theorem Value.Form.unique {v w : Value} {text : List Char} (form : v.Form text)
    (otherForm : w.Form text) : v = w := by
  have nothing : Ends [] := trivial
  exact (unambiguous v form otherForm (nothing.endsBefore v) (nothing.endsBefore w) rfl).1

/-- The pretty text of a value is the pretty text of no other. -/
theorem Value.FloatFree.eq_of_prettyText_eq {v w : Value} (free : v.FloatFree)
    (otherFree : w.FloatFree) (same : v.prettyText = w.prettyText) : v = w := by
  have texts : v.pretty 0 = w.pretty 0 := String.ofList_injective same
  have form := otherFree.form_pretty 0
  rw [← texts] at form
  exact (free.form_pretty 0).unique form

end DecoderTables.Json
