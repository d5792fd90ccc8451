import DecoderTables.Proofs.Document.Sections
import DecoderTables.Proofs.Document.Written
import DecoderTables.Proofs.Json.Writing

/-!
A document that is written and read again is the same document, whichever way it was written and
whatever stands between the tokens of the text.
-/

namespace DecoderTables
open Json

variable {α : Type}

/-- The brackets of an entry and inside it, when two are around it. -/
def entryLimit : Nat :=
  depthLimit - 2

/-- Fields that a text can hold: names occur once, as in a map, no number is a floating-point
number, and brackets nest within the limit below the document and the section. -/
structure Storable (fields : Members) : Prop where
  distinct : (Value.object fields).Distinct
  floatFree : (Value.object fields).FloatFree
  depth : (Value.object fields).depth ≤ entryLimit

/-- A value that a reader of this depth can read. -/
def Plain (depth : Nat) (v : Value) : Prop :=
  v.FloatFree ∧ v.depth ≤ depth

theorem plain_object_iff {depth : Nat} {members : Members} :
    Plain (depth + 1) (.object members) ↔ ∀ m ∈ members, Plain depth m.2 := by
  rw [Plain, Value.floatFree_object_iff, Value.depth, Nat.add_le_add_iff_right,
    Value.membersDepth_le_iff]
  constructor
  · rintro ⟨floats, depths⟩ m member
    exact ⟨floats m member, depths m member⟩
  · intro each
    exact ⟨fun m member => (each m member).1, fun m member => (each m member).2⟩

/-- What holds of the known members and of the others holds of all. -/
theorem forall_of_known {P : Value → Prop} {members : Members} (names : List String)
    (known : ∀ name ∈ names, ∀ v ∈ members.valuesOf name, P v)
    (others : ∀ m ∈ members.others names, P m.2) : ∀ m ∈ members, P m.2 := by
  intro m member
  by_cases inside : m.1 ∈ names
  · refine known m.1 inside m.2 ?_
    simp only [Members.valuesOf, List.mem_map, List.mem_filter]
    exact ⟨m, ⟨member, by simp⟩, rfl⟩
  · refine others m ?_
    simp only [Members.others, List.mem_filter]
    exact ⟨member, by simpa using inside⟩

theorem plain_string (depth : Nat) (s : String) : Plain depth (.string s) :=
  ⟨.string s, Nat.zero_le _⟩

theorem plain_strings (depth : Nat) (texts : List String) :
    Plain (depth + 1) (.array (texts.map .string)) := by
  have strings : ∀ item ∈ texts.map Value.string, Plain depth item := by
    rintro _ member
    obtain ⟨s, _, rfl⟩ := List.mem_map.mp member
    exact plain_string depth s
  refine ⟨.array fun item member => (strings item member).1, ?_⟩
  rw [Value.depth, Nat.add_le_add_iff_right, Value.itemsDepth_le_iff]
  exact fun item member => (strings item member).2

theorem plain_writtenFlags {depth : Nat} {values : List Value} {flags : List String}
    (written : WrittenFlags values flags) : ∀ v ∈ values, Plain (depth + 1) v := by
  rcases written with rfl | ⟨rfl, _⟩
  · exact List.forall_mem_singleton.mpr (plain_strings depth flags)
  · nofun

theorem plain_writtenOption {writes : α → Value → Prop} {depth : Nat} {values : List Value}
    {found : Option α} (written : WrittenOption writes values found)
    (plain : ∀ a v, writes a v → Plain depth v) : ∀ v ∈ values, Plain depth v := by
  cases found with
  | none =>
    rcases written with rfl | rfl
    · nofun
    · exact List.forall_mem_singleton.mpr ⟨.null, Nat.zero_le _⟩
  | some a =>
    obtain ⟨v, rfl, writes⟩ := written
    exact List.forall_mem_singleton.mpr (plain a v writes)

theorem slot_of_writtenFlags {members : Members} {name : String} {flags : List String}
    (written : WrittenFlags (members.valuesOf name) flags) :
    ∃ found, Slot name AreTexts members found ∧ flags = found.getD [] := by
  rcases written with only | ⟨absent, rfl⟩
  · exact ⟨some flags, ⟨_, only, rfl⟩, rfl⟩
  · exact ⟨none, absent, rfl⟩

theorem slot_of_writtenOption {writes : α → Value → Prop} {holds : Value → α → Prop}
    {members : Members} {name : String} {part : Option α}
    (written : WrittenOption writes (members.valuesOf name) part)
    (each : ∀ a v, writes a v → holds v a) :
    ∃ found, Slot name (OrNull holds) members found ∧ part = found.getD none := by
  cases part with
  | none =>
    rcases written with absent | only
    · exact ⟨none, absent, rfl⟩
    · exact ⟨some none, ⟨.null, only, rfl⟩, rfl⟩
  | some a =>
    obtain ⟨v, only, writes⟩ := written
    exact ⟨some (some a), ⟨v, only, each a v writes⟩, rfl⟩

theorem PatternEntry.WrittenAs.isPattern {entry : PatternEntry} {members : Members}
    (written : entry.WrittenAs members) : IsPattern (.object members) entry :=
  .object ⟨⟨_, written.lo, rfl⟩, slot_of_writtenOption written.hi fun _ _ text => text⟩

theorem PatternEntry.WrittenAs.plain {entry : PatternEntry} {members : Members}
    (written : entry.WrittenAs members) (depth : Nat) : Plain (depth + 1) (.object members) := by
  refine plain_object_iff.mpr (forall_of_known ["lo", "hi"] ?_ ?_)
  · simp only [List.forall_mem_cons, List.not_mem_nil, false_implies, implies_true, and_true,
      written.lo]
    refine ⟨plain_string depth entry.lo, plain_writtenOption written.hi ?_⟩
    rintro hi _ rfl
    exact plain_string depth hi
  · rw [written.others]
    nofun

theorem Storable.merged {fields : Members} (storable : Storable fields) :
    (Value.mergedMembers fields).merged = fields := by
  have same := storable.distinct.merged_eq
  rw [Value.merged, Value.object.injEq] at same
  exact same

theorem Storable.plain {fields : Members} (storable : Storable fields) :
    Plain entryLimit (.object fields) :=
  ⟨storable.floatFree, storable.depth⟩

/-- What a writer of entries has to fulfil for a reader of them. -/
def Restores (writes : α → Members → Prop) (holds : Members → α → Prop) (a : α) : Prop :=
  ∀ inner, writes a inner → holds inner a ∧ Plain entryLimit (.object inner)

theorem restores_instruction {fields : Members} (storable : Storable fields) :
    Restores (fun fields inner => inner = fields) InstructionMembers fields := by
  rintro _ rfl
  exact ⟨storable.merged.symm, storable.plain⟩

namespace DecoderEntry.WrittenAs

variable {entry : DecoderEntry} {members : Members}

theorem describes (written : entry.WrittenAs members) (storable : Storable entry.fields) :
    DecoderMembers members entry where
  instruction := ⟨_, written.instruction, rfl⟩
  flags := slot_of_writtenFlags written.flags
  pattern := slot_of_writtenOption written.pattern fun _ _ ⟨_, same, halves⟩ =>
    same ▸ halves.isPattern
  fields := by rw [written.fields, storable.merged]

theorem plain (written : entry.WrittenAs members) (storable : Storable entry.fields) :
    Plain entryLimit (.object members) := by
  refine plain_object_iff.mpr (forall_of_known ["instruction", "flags", "pattern"] ?_ ?_)
  · simp only [List.forall_mem_cons, List.not_mem_nil, false_implies, implies_true, and_true,
      written.instruction]
    refine ⟨plain_string _ _, plain_writtenFlags written.flags,
      plain_writtenOption written.pattern ?_⟩
    rintro pattern _ ⟨halves, rfl, written⟩
    exact written.plain _
  · rw [written.fields]
    exact plain_object_iff.mp storable.plain

end DecoderEntry.WrittenAs

theorem DecoderEntry.restores {entry : DecoderEntry} (storable : Storable entry.fields) :
    Restores WrittenAs DecoderMembers entry :=
  fun _ written => ⟨written.describes storable, written.plain storable⟩

namespace SplitterEntry.WrittenAs

variable {entry : SplitterEntry} {members : Members}

theorem describes (written : entry.WrittenAs members) (storable : Storable entry.fields) :
    SplitterMembers members entry where
  flags := slot_of_writtenFlags written.flags
  fields := by rw [written.fields, storable.merged]

theorem plain (written : entry.WrittenAs members) (storable : Storable entry.fields) :
    Plain entryLimit (.object members) := by
  refine plain_object_iff.mpr (forall_of_known ["flags"] ?_ ?_)
  · exact List.forall_mem_singleton.mpr (plain_writtenFlags written.flags)
  · rw [written.fields]
    exact plain_object_iff.mp storable.plain

end SplitterEntry.WrittenAs

theorem SplitterEntry.restores {entry : SplitterEntry} (storable : Storable entry.fields) :
    Restores WrittenAs SplitterMembers entry :=
  fun _ written => ⟨written.describes storable, written.plain storable⟩

namespace OpcodeEntry.WrittenAs

variable {entry : OpcodeEntry} {members : Members}

theorem describes (written : entry.WrittenAs members) (storable : Storable entry.fields) :
    OpcodeMembers members entry where
  decoder := ⟨_, written.decoder, rfl⟩
  fields := by rw [written.fields, storable.merged]

theorem plain (written : entry.WrittenAs members) (storable : Storable entry.fields) :
    Plain entryLimit (.object members) := by
  refine plain_object_iff.mpr (forall_of_known ["decoder"] ?_ ?_)
  · rw [List.forall_mem_singleton, written.decoder, List.forall_mem_singleton]
    exact plain_string _ _
  · rw [written.fields]
    exact plain_object_iff.mp storable.plain

end OpcodeEntry.WrittenAs

theorem OpcodeEntry.restores {entry : OpcodeEntry} (storable : Storable entry.fields) :
    Restores WrittenAs OpcodeMembers entry :=
  fun _ written => ⟨written.describes storable, written.plain storable⟩

theorem sectionMembers_of_writtenAs {writes : α → Members → Prop} {holds : Members → α → Prop}
    {entries : Section α} {members : Members} (written : entries.WrittenAs writes members)
    (each : ∀ entry ∈ entries, Restores writes holds entry.2) :
    SectionMembers (IsRecord holds) members entries ∧
      Plain (entryLimit + 1) (.object members) := by
  rw [plain_object_iff]
  unfold Section.WrittenAs at written
  induction written with
  | nil => exact ⟨.nil, nofun⟩
  | @cons m entry members entries first others ih =>
    obtain ⟨restores, each⟩ := List.forall_mem_cons.mp each
    obtain ⟨name, inner, same, writes⟩ := first
    obtain ⟨describes, plain⟩ := restores inner writes
    obtain ⟨related, plainOthers⟩ := ih each
    exact ⟨.cons ⟨name.symm, inner, same, describes⟩ related,
      List.forall_mem_cons.mpr ⟨same ▸ plain, plainOthers⟩⟩

theorem slot_of_writtenSection {writes : α → Members → Prop} {holds : Members → α → Prop}
    {members : Members} {name : String} {entries : Section α}
    (written : WrittenSection writes (members.valuesOf name) entries)
    (each : ∀ entry ∈ entries, Restores writes holds entry.2) :
    (∃ found, Slot name (IsSection holds) members found ∧ entries = found.getD []) ∧
      ∀ v ∈ members.valuesOf name, Plain (entryLimit + 1) v := by
  rcases written with ⟨inner, only, written⟩ | ⟨absent, rfl⟩
  · obtain ⟨related, plain⟩ := sectionMembers_of_writtenAs written each
    rw [only, List.forall_mem_singleton]
    exact ⟨⟨some entries, ⟨_, only, inner, rfl, related⟩, rfl⟩, plain⟩
  · rw [absent]
    exact ⟨⟨none, absent, rfl⟩, nofun⟩

theorem Document.WrittenAs.describes_and_plain {document : Document} {members : Members}
    (written : document.WrittenAs members)
    (storable : ∀ fields ∈ document.allFields, Storable fields) :
    DocumentMembers members document ∧ Plain depthLimit (.object members) := by
  simp only [Document.allFields, List.forall_mem_append, List.forall_mem_map] at storable
  obtain ⟨⟨⟨inInstructions, inDecoders⟩, inSplitters⟩, inOpcodes⟩ := storable
  have instructions := slot_of_writtenSection written.instructions
    fun entry member => restores_instruction (inInstructions entry member)
  have decoders := slot_of_writtenSection written.decoders
    fun entry member => entry.2.restores (inDecoders entry member)
  have splitters := slot_of_writtenSection written.splitters
    fun entry member => entry.2.restores (inSplitters entry member)
  have opcodes := slot_of_writtenSection written.opcodes
    fun entry member => entry.2.restores (inOpcodes entry member)
  refine ⟨⟨instructions.1, decoders.1, splitters.1, opcodes.1⟩, plain_object_iff.mpr
    (forall_of_known ["instructions", "decoders", "splitters", "opcodes"] ?_ ?_)⟩
  · simp only [List.forall_mem_cons, List.not_mem_nil, false_implies, implies_true, and_true]
    exact ⟨instructions.2, decoders.2, splitters.2, opcodes.2⟩
  · rw [written.others]
    nofun

/-- Every text of the object that a document is written as gives back the document, and so do the
two texts that the printer makes of it. -/
theorem Document.read_of_writtenAs {document : Document} {members : Members}
    (storable : ∀ fields ∈ document.allFields, Storable fields)
    (written : document.WrittenAs members) :
    (∀ before text after : List Char, Blank before → (Value.object members).Form text →
        Blank after → Document.read (String.ofList (before ++ (text ++ after))) = .ok document) ∧
      Document.read (Value.object members).compactText = .ok document ∧
      Document.read (Value.object members).prettyText = .ok document := by
  obtain ⟨describes, free, limit⟩ := written.describes_and_plain storable
  have every : ∀ before text after : List Char, Blank before → (Value.object members).Form text →
      Blank after → Document.read (String.ofList (before ++ (text ++ after))) = .ok document :=
    fun before text after blankBefore form blankAfter =>
      (Document.read_eq_ok_iff limit form blankBefore blankAfter document).mpr describes
  have whole : ∀ text, (Value.object members).Form text →
      Document.read (String.ofList text) = .ok document := by
    intro text form
    simpa using every [] text [] blank_nil form blank_nil
  exact ⟨every, whole _ free.form_compact, whole _ (free.form_pretty 0)⟩

/-- Two instructions of one name, and a decoder. -/
def smallDocument : Document where
  instructions := [("add", []), ("add", [("kind", .string "alu")])]
  decoders := [("add_t1",
    ⟨"add", [], some ⟨"0001", none⟩, [("note", .null), ("wide", .bool true)]⟩)]
  splitters := []
  opcodes := []

/-- The decoders first, with the known members among the fields. -/
def smallMembers : Members :=
  [("decoders", .object [("add_t1", .object [("note", .null),
      ("pattern", .object [("hi", .null), ("lo", .string "0001")]), ("wide", .bool true),
      ("instruction", .string "add")])]),
    ("instructions", .object [("add", .object []), ("add", .object [("kind", .string "alu")])])]

theorem storable_small : ∀ fields ∈ smallDocument.allFields, Storable fields := by
  simp only [Document.allFields, smallDocument, List.map_cons, List.map_nil, List.append_nil,
    List.cons_append, List.nil_append, List.forall_mem_cons, List.not_mem_nil, false_implies,
    implies_true, and_true]
  refine ⟨⟨.object .nil nofun, .object nofun, by decide⟩,
    ⟨.object (by decide) ?_, ?_, by decide⟩, ⟨.object (by decide) ?_, ?_, by decide⟩⟩
  · simpa using Value.Distinct.string "alu"
  · simp
  · simpa using ⟨Value.Distinct.null, Value.Distinct.bool true⟩
  · simpa using Value.FloatFree.null

theorem writtenAs_small : smallDocument.WrittenAs smallMembers where
  instructions := Or.inl ⟨_, rfl, .cons ⟨rfl, _, rfl, rfl⟩ (.cons ⟨rfl, _, rfl, rfl⟩ .nil)⟩
  decoders := Or.inl ⟨_, rfl, .cons ⟨rfl, _, rfl, rfl, Or.inr ⟨rfl, rfl⟩,
    ⟨_, rfl, _, rfl, rfl, Or.inr rfl, rfl⟩, rfl⟩ .nil⟩
  splitters := Or.inr ⟨rfl, rfl⟩
  opcodes := Or.inr ⟨rfl, rfl⟩
  others := rfl

theorem read_of_writtenAs_small :
    Document.read (Value.object smallMembers).compactText = .ok smallDocument :=
  (Document.read_of_writtenAs storable_small writtenAs_small).2.1

end DecoderTables
