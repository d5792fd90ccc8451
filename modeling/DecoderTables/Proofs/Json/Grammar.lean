import DecoderTables.Proofs.Json.Integers
import DecoderTables.Proofs.Json.Strings

/-!
The grammar of a value without floating-point numbers: every text that writes it, with white space
between its tokens, with any of the forms of a string, and with the members of an object as they
stand, repeated or not.
-/

namespace DecoderTables.Json

mutual

/-- The texts of a value, without white space around it. An object may repeat a name. -/
inductive Value.Form : Value → List Char → Prop
  | null : Value.Form .null ['n', 'u', 'l', 'l']
  | yes : Value.Form (.bool true) ['t', 'r', 'u', 'e']
  | no : Value.Form (.bool false) ['f', 'a', 'l', 's', 'e']
  | integer (n : Integer) : Value.Form (.number (.integer n)) (Number.integer n).text
  | string {s : String} {text : List Char} (form : QuotedForm s text) : Value.Form (.string s) text
  | array {items : List Value} {text : List Char} (form : ItemsForm true items text) :
      Value.Form (.array items) ('[' :: text)
  | object {members : Members} {text : List Char} (form : MembersForm true members text) :
      Value.Form (.object members) ('\x7b' :: text)

/-- What follows the opening bracket of a list, or an item if not `first`. -/
inductive ItemsForm : Bool → List Value → List Char → Prop
  | close {first : Bool} {space : List Char} (blank : Blank space) :
      ItemsForm first [] (space ++ [']'])
  | item {first : Bool} {item : Value} {items : List Value} {separator space text more : List Char}
      (separates : Separator first separator) (blank : Blank space) (form : item.Form text)
      (rest : ItemsForm false items more) :
      ItemsForm first (item :: items) (separator ++ (space ++ (text ++ more)))

/-- What follows the opening bracket of an object, or a member if not `first`. -/
inductive MembersForm : Bool → Members → List Char → Prop
  | close {first : Bool} {space : List Char} (blank : Blank space) :
      MembersForm first [] (space ++ ['\x7d'])
  | member {first : Bool} {name : String} {value : Value} {members : Members}
      {separator space nameText before after text more : List Char}
      (separates : Separator first separator) (blank : Blank space)
      (nameForm : QuotedForm name nameText) (blankBefore : Blank before)
      (blankAfter : Blank after) (form : value.Form text) (rest : MembersForm false members more) :
      MembersForm first ((name, value) :: members)
        (separator ++ (space ++ (nameText ++ (before ++ ':' :: (after ++ (text ++ more))))))

end

/-- The text of an item with the text behind the list moved inside. -/
theorem item_append (separator space text more rest : List Char) :
    separator ++ (space ++ (text ++ more)) ++ rest =
      separator ++ (space ++ (text ++ (more ++ rest))) := by
  simp only [List.append_assoc]

theorem member_append (separator space nameText before after text more rest : List Char) :
    separator ++ (space ++ (nameText ++ (before ++ ':' :: (after ++ (text ++ more))))) ++ rest =
      separator ++
        (space ++ (nameText ++ (before ++ ':' :: (after ++ (text ++ (more ++ rest)))))) := by
  simp only [List.append_assoc, List.cons_append]

/-- Whether a text of a value may begin with a character. -/
def Value.begins : Value → Char → Bool
  | .null, c => c == 'n'
  | .bool true, c => c == 't'
  | .bool false, c => c == 'f'
  | .number _, c => c == '-' || c.isDigit
  | .string _, c => c == '"'
  | .array _, c => c == '['
  | .object _, c => c == '\x7b'

theorem Value.Form.exists_begins {v : Value} {text : List Char} (form : v.Form text) :
    ∃ c more, text = c :: more ∧ v.begins c = true := by
  cases form with
  | null => exact ⟨_, _, rfl, rfl⟩
  | yes => exact ⟨_, _, rfl, rfl⟩
  | no => exact ⟨_, _, rfl, rfl⟩
  | integer n =>
    rcases text_integer n with ⟨m, _, _, text⟩ | ⟨m, _, _, _, text⟩
    · cases split : Nat.toDigits 10 m with
      | nil => exact absurd split Nat.toDigits_ne_nil
      | cons c digits =>
        have digit : c.isDigit = true :=
          Nat.isDigit_of_mem_toDigits (by decide) (by decide) (split ▸ List.mem_cons_self)
        exact ⟨c, digits, text.trans split, by simp [Value.begins, digit]⟩
    · exact ⟨_, _, text, rfl⟩
  | string form =>
    cases form
    exact ⟨_, _, rfl, rfl⟩
  | array form => exact ⟨_, _, rfl, rfl⟩
  | object form => exact ⟨_, _, rfl, rfl⟩

/-- No value begins with white space or with the end of a list or of an object. -/
theorem Value.begins_eq_false (v : Value) {c : Char}
    (member : c ∈ [' ', '\n', '\t', '\r', ']', '\x7d']) : v.begins c = false := by
  simp only [List.mem_cons, List.not_mem_nil, or_false] at member
  rcases v with _ | (_ | _) | _ | _ | _ | _ <;>
    rcases member with rfl | rfl | rfl | rfl | rfl | rfl <;> rfl

theorem Value.isSpace_eq_of_begins {v : Value} {c : Char} (begins : v.begins c = true) :
    isSpace c = false := by
  cases white : isSpace c with
  | false => rfl
  | true =>
    simp only [isSpace, Bool.or_eq_true, beq_iff_eq] at white
    rw [v.begins_eq_false (by simpa [or_assoc] using Or.inl white)] at begins
    cases begins

theorem Value.ne_close_of_begins {v : Value} {c : Char} (begins : v.begins c = true)
    (bracket : Bracket) : c ≠ bracket.close := by
  rintro rfl
  rw [v.begins_eq_false (by cases bracket <;> decide)] at begins
  cases begins

end DecoderTables.Json
