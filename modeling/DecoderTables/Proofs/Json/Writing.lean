import DecoderTables.Proofs.Json.Grammar

/-!
What the printer writes is a text of the value, compact as well as pretty, for every value without
floating-point numbers.
-/

namespace DecoderTables.Json

/-- A value without floating-point numbers. -/
inductive Value.FloatFree : Value → Prop
  | null : Value.null.FloatFree
  | bool (b : Bool) : (Value.bool b).FloatFree
  | integer (n : Integer) : (Value.number (.integer n)).FloatFree
  | string (s : String) : (Value.string s).FloatFree
  | array {items : List Value} (each : ∀ item ∈ items, item.FloatFree) :
      (Value.array items).FloatFree
  | object {members : Members} (each : ∀ m ∈ members, m.2.FloatFree) :
      (Value.object members).FloatFree

@[simp]
theorem Value.floatFree_bool (b : Bool) : (Value.bool b).FloatFree :=
  .bool b

@[simp]
theorem Value.floatFree_natural (n : Nat) : (Value.natural n).FloatFree :=
  .integer _

@[simp]
theorem Value.floatFree_string (s : String) : (Value.string s).FloatFree :=
  .string s

@[simp]
theorem Value.floatFree_array_iff {items : List Value} :
    (Value.array items).FloatFree ↔ ∀ item ∈ items, item.FloatFree :=
  ⟨fun free => by cases free with | array each => exact each, .array⟩

@[simp]
theorem Value.floatFree_object_iff {members : Members} :
    (Value.object members).FloatFree ↔ ∀ m ∈ members, m.2.FloatFree :=
  ⟨fun free => by cases free with | object each => exact each, .object⟩

theorem blank_newLine (level : Nat) : Blank (newLine level) := by
  intro c member
  rcases List.mem_cons.mp member with rfl | spaces
  · rfl
  · rw [List.eq_of_mem_replicate spaces]
    rfl

theorem blank_space : Blank [' '] := by
  intro c member
  rw [List.mem_singleton.mp member]
  rfl

theorem separator_nil : Separator true [] :=
  rfl

theorem separator_comma : Separator false [','] :=
  ⟨[], blank_nil, rfl⟩

theorem itemsForm_compactItems {items : List Value}
    (each : ∀ item ∈ items, item.Form item.compact) :
    ItemsForm false items (Value.compactItems items) := by
  induction items with
  | nil => exact .close blank_nil
  | cons item items ih =>
    obtain ⟨form, each⟩ := List.forall_mem_cons.mp each
    exact .item separator_comma blank_nil form (ih each)

theorem membersForm_compactMembers {members : Members}
    (each : ∀ m ∈ members, m.2.Form m.2.compact) :
    MembersForm false members (Value.compactMembers members) := by
  induction members with
  | nil => exact .close blank_nil
  | cons m members ih =>
    obtain ⟨form, each⟩ := List.forall_mem_cons.mp each
    exact .member separator_comma blank_nil (quotedForm_quote m.1) blank_nil blank_nil form
      (ih each)

theorem Value.FloatFree.form_compact {v : Value} (free : v.FloatFree) : v.Form v.compact := by
  induction free with
  | null => exact .null
  | bool b =>
    cases b with
    | true => exact .yes
    | false => exact .no
  | integer n => exact .integer n
  | string s => exact .string (quotedForm_quote s)
  | @array items each ih =>
    cases items with
    | nil => exact .array (.close blank_nil)
    | cons item items =>
      obtain ⟨form, ih⟩ := List.forall_mem_cons.mp ih
      exact .array (.item separator_nil blank_nil form (itemsForm_compactItems ih))
  | @object members each ih =>
    cases members with
    | nil => exact .object (.close blank_nil)
    | cons m members =>
      obtain ⟨form, ih⟩ := List.forall_mem_cons.mp ih
      exact .object (.member separator_nil blank_nil (quotedForm_quote m.1) blank_nil blank_nil form
        (membersForm_compactMembers ih))

theorem itemsForm_prettyItems {items : List Value} {level : Nat}
    (each : ∀ item ∈ items, item.Form (item.pretty (level + 1))) :
    ItemsForm false items (Value.prettyItems level items) := by
  induction items with
  | nil => exact .close (blank_newLine level)
  | cons item items ih =>
    obtain ⟨form, each⟩ := List.forall_mem_cons.mp each
    exact .item separator_comma (blank_newLine _) form (ih each)

theorem membersForm_prettyMembers {members : Members} {level : Nat}
    (each : ∀ m ∈ members, m.2.Form (m.2.pretty (level + 1))) :
    MembersForm false members (Value.prettyMembers level members) := by
  induction members with
  | nil => exact .close (blank_newLine level)
  | cons m members ih =>
    obtain ⟨form, each⟩ := List.forall_mem_cons.mp each
    exact .member separator_comma (blank_newLine _) (quotedForm_quote m.1) blank_nil blank_space form
      (ih each)

theorem Value.FloatFree.form_pretty {v : Value} (free : v.FloatFree) (level : Nat) :
    v.Form (v.pretty level) := by
  induction free generalizing level with
  | null => exact .null
  | bool b =>
    cases b with
    | true => exact .yes
    | false => exact .no
  | integer n => exact .integer n
  | string s => exact .string (quotedForm_quote s)
  | @array items each ih =>
    cases items with
    | nil => exact .array (.close blank_nil)
    | cons item items =>
      obtain ⟨form, others⟩ := List.forall_mem_cons.mp fun item member => ih item member (level + 1)
      exact .array (.item separator_nil (blank_newLine _) form (itemsForm_prettyItems others))
  | @object members each ih =>
    cases members with
    | nil => exact .object (.close blank_nil)
    | cons m members =>
      obtain ⟨form, others⟩ := List.forall_mem_cons.mp fun m member => ih m member (level + 1)
      exact .object (.member separator_nil (blank_newLine _) (quotedForm_quote m.1) blank_nil
        blank_space form (membersForm_prettyMembers others))

end DecoderTables.Json
