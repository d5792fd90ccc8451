import DecoderTables.Proofs.Document.Members

/-!
Documents as they are written, as an object. The sections may stand in any order, those that are
empty may be left out, and the known members of an entry may stand anywhere among its fields; the
fields themselves keep their order. A document has such an object when no field takes the name of a
known member.
-/

namespace DecoderTables
open Json

variable {α : Type}

/-- The values of a member that is left out or `null` when there is nothing to write. -/
def WrittenOption (writes : α → Value → Prop) (values : List Value) : Option α → Prop
  | none => values = [] ∨ values = [.null]
  | some a => ∃ v, values = [v] ∧ writes a v

/-- The values of a member that may be left out when the list is empty. -/
def WrittenFlags (values : List Value) (flags : List String) : Prop :=
  values = [.array (flags.map .string)] ∨ values = [] ∧ flags = []

structure PatternEntry.WrittenAs (entry : PatternEntry) (members : Members) : Prop where
  lo : members.valuesOf "lo" = [.string entry.lo]
  hi : WrittenOption (fun hi v => v = .string hi) (members.valuesOf "hi") entry.hi
  others : members.others ["lo", "hi"] = []

structure DecoderEntry.WrittenAs (entry : DecoderEntry) (members : Members) : Prop where
  instruction : members.valuesOf "instruction" = [.string entry.instruction]
  flags : WrittenFlags (members.valuesOf "flags") entry.flags
  pattern : WrittenOption (fun pattern v => ∃ halves, v = .object halves ∧ pattern.WrittenAs halves)
    (members.valuesOf "pattern") entry.pattern
  fields : members.others ["instruction", "flags", "pattern"] = entry.fields

structure SplitterEntry.WrittenAs (entry : SplitterEntry) (members : Members) : Prop where
  flags : WrittenFlags (members.valuesOf "flags") entry.flags
  fields : members.others ["flags"] = entry.fields

structure OpcodeEntry.WrittenAs (entry : OpcodeEntry) (members : Members) : Prop where
  decoder : members.valuesOf "decoder" = [.string entry.decoder]
  fields : members.others ["decoder"] = entry.fields

/-- The entries of a section in their order, each as an object. -/
def Section.WrittenAs (writes : α → Members → Prop) (entries : Section α) (members : Members) :
    Prop :=
  List.Forall₂ (fun m entry => m.1 = entry.1 ∧
    ∃ inner, m.2 = .object inner ∧ writes entry.2 inner) members entries

/-- The values of the member of a section, which may be left out when the section is empty. -/
def WrittenSection (writes : α → Members → Prop) (values : List Value) (entries : Section α) :
    Prop :=
  (∃ members, values = [.object members] ∧ entries.WrittenAs writes members) ∨
    values = [] ∧ entries = []

structure Document.WrittenAs (document : Document) (members : Members) : Prop where
  instructions : WrittenSection (fun fields inner => inner = fields)
    (members.valuesOf "instructions") document.instructions
  decoders : WrittenSection DecoderEntry.WrittenAs (members.valuesOf "decoders") document.decoders
  splitters : WrittenSection SplitterEntry.WrittenAs (members.valuesOf "splitters")
    document.splitters
  opcodes : WrittenSection OpcodeEntry.WrittenAs (members.valuesOf "opcodes") document.opcodes
  others : members.others ["instructions", "decoders", "splitters", "opcodes"] = []

/-- The fields of all entries of a document. -/
def Document.allFields (document : Document) : List Members :=
  document.instructions.map (·.2) ++ document.decoders.map (·.2.fields) ++
    document.splitters.map (·.2.fields) ++ document.opcodes.map (·.2.fields)

/-- The fields of a record use none of the names that the record knows. -/
def Unshadowed (fields : Members) (known : List String) : Prop :=
  ∀ m ∈ fields, m.1 ∉ known

theorem unshadowed_others (members : Members) (known : List String) :
    Unshadowed (members.others known) known := by
  intro m member
  simpa using (List.mem_filter.mp member).2

namespace Unshadowed

variable {fields : Members} {known : List String}

theorem others_append (unshadowed : Unshadowed fields known) {members : Members}
    (inside : ∀ m ∈ members, m.1 ∈ known) : Members.others (members ++ fields) known = fields := by
  rw [Members.others, List.filter_append, List.filter_eq_nil_iff.mpr (by simpa using inside),
    List.nil_append, List.filter_eq_self.mpr fun m member => by simpa using unshadowed m member]

theorem valuesOf_append (unshadowed : Unshadowed fields known) (members : Members) {name : String}
    (inside : name ∈ known) :
    Members.valuesOf (members ++ fields) name = members.valuesOf name := by
  have none : fields.filter (·.1 = name) = [] :=
    List.filter_eq_nil_iff.mpr fun m member same => unshadowed m member (by simp_all)
  rw [Members.valuesOf, List.filter_append, none, List.append_nil, Members.valuesOf]

end Unshadowed

def PatternEntry.members (entry : PatternEntry) : Members :=
  ("lo", .string entry.lo) :: entry.hi.toList.map fun hi => ("hi", .string hi)

theorem PatternEntry.writtenAs_members (entry : PatternEntry) : entry.WrittenAs entry.members := by
  obtain ⟨lo, hi⟩ := entry
  cases hi with
  | none => exact ⟨rfl, Or.inl rfl, rfl⟩
  | some hi => exact ⟨rfl, ⟨_, rfl, rfl⟩, rfl⟩

def DecoderEntry.members (entry : DecoderEntry) : Members :=
  [("instruction", .string entry.instruction), ("flags", .array (entry.flags.map .string))] ++
    (entry.pattern.toList.map fun pattern => ("pattern", .object pattern.members)) ++ entry.fields

def SplitterEntry.members (entry : SplitterEntry) : Members :=
  [("flags", .array (entry.flags.map .string))] ++ entry.fields

def OpcodeEntry.members (entry : OpcodeEntry) : Members :=
  [("decoder", .string entry.decoder)] ++ entry.fields

theorem DecoderEntry.writtenAs_members {entry : DecoderEntry}
    (unshadowed : Unshadowed entry.fields ["instruction", "flags", "pattern"]) :
    entry.WrittenAs entry.members := by
  obtain ⟨instruction, flags, pattern, fields⟩ := entry
  unfold members
  constructor
  · rw [unshadowed.valuesOf_append _ (by decide)]
    cases pattern <;> rfl
  · rw [unshadowed.valuesOf_append _ (by decide)]
    cases pattern <;> exact Or.inl rfl
  · rw [unshadowed.valuesOf_append _ (by decide)]
    cases pattern with
    | none => exact Or.inl rfl
    | some pattern => exact ⟨_, rfl, pattern.members, rfl, pattern.writtenAs_members⟩
  · rw [unshadowed.others_append]
    cases pattern <;> simp

theorem SplitterEntry.writtenAs_members {entry : SplitterEntry}
    (unshadowed : Unshadowed entry.fields ["flags"]) : entry.WrittenAs entry.members := by
  unfold members
  constructor
  · rw [unshadowed.valuesOf_append _ (by decide)]
    exact Or.inl rfl
  · rw [unshadowed.others_append (by simp)]

theorem OpcodeEntry.writtenAs_members {entry : OpcodeEntry}
    (unshadowed : Unshadowed entry.fields ["decoder"]) : entry.WrittenAs entry.members := by
  unfold members
  constructor
  · rw [unshadowed.valuesOf_append _ (by decide)]
    rfl
  · rw [unshadowed.others_append (by simp)]

/-- No entry of a document has a field with a name that its record knows. -/
structure Document.Unshadowed (document : Document) : Prop where
  decoders : ∀ entry ∈ document.decoders,
    DecoderTables.Unshadowed entry.2.fields ["instruction", "flags", "pattern"]
  splitters : ∀ entry ∈ document.splitters, DecoderTables.Unshadowed entry.2.fields ["flags"]
  opcodes : ∀ entry ∈ document.opcodes, DecoderTables.Unshadowed entry.2.fields ["decoder"]

theorem writtenSection_map {writes : α → Members → Prop} (write : α → Members)
    {entries : Section α} (each : ∀ entry ∈ entries, writes entry.2 (write entry.2)) :
    WrittenSection writes [.object (entries.map fun entry => (entry.1, .object (write entry.2)))]
      entries := by
  refine Or.inl ⟨_, rfl, ?_⟩
  rw [Section.WrittenAs, List.forall₂_map_left_iff, List.forall₂_same]
  exact fun entry member => ⟨rfl, _, rfl, each entry member⟩

theorem exists_of_writtenSection {writes : α → Members → Prop} {values : List Value}
    {entries : Section α} (written : WrittenSection writes values entries) :
    ∀ entry ∈ entries, ∃ inner, writes entry.2 inner := by
  rcases written with ⟨members, rfl, written⟩ | ⟨_, rfl⟩
  · unfold Section.WrittenAs at written
    induction written with
    | nil => nofun
    | cons first _ ih =>
      obtain ⟨_, inner, _, writes⟩ := first
      exact List.forall_mem_cons.mpr ⟨⟨inner, writes⟩, ih⟩
  · nofun

/-- The members of a document, with all sections and the known members of each entry in front. -/
def Document.members (document : Document) : Members :=
  [("instructions", .object (document.instructions.map fun entry => (entry.1, .object entry.2))),
    ("decoders", .object (document.decoders.map fun entry => (entry.1, .object entry.2.members))),
    ("splitters", .object (document.splitters.map fun entry => (entry.1, .object entry.2.members))),
    ("opcodes", .object (document.opcodes.map fun entry => (entry.1, .object entry.2.members)))]

theorem Document.Unshadowed.writtenAs_members {document : Document}
    (unshadowed : document.Unshadowed) : document.WrittenAs document.members where
  instructions := writtenSection_map (fun fields => fields) fun _ _ => rfl
  decoders := writtenSection_map DecoderEntry.members fun entry member =>
    entry.2.writtenAs_members (unshadowed.decoders entry member)
  splitters := writtenSection_map SplitterEntry.members fun entry member =>
    entry.2.writtenAs_members (unshadowed.splitters entry member)
  opcodes := writtenSection_map OpcodeEntry.members fun entry member =>
    entry.2.writtenAs_members (unshadowed.opcodes entry member)
  others := rfl

/-- A document can be written exactly when its fields leave the known names alone. -/
theorem Document.exists_writtenAs_iff (document : Document) :
    (∃ members, document.WrittenAs members) ↔ document.Unshadowed := by
  refine ⟨fun ⟨members, written⟩ => ⟨fun entry member => ?_, fun entry member => ?_,
    fun entry member => ?_⟩, fun unshadowed => ⟨_, unshadowed.writtenAs_members⟩⟩
  · obtain ⟨inner, written⟩ := exists_of_writtenSection written.decoders entry member
    exact written.fields ▸ unshadowed_others inner _
  · obtain ⟨inner, written⟩ := exists_of_writtenSection written.splitters entry member
    exact written.fields ▸ unshadowed_others inner _
  · obtain ⟨inner, written⟩ := exists_of_writtenSection written.opcodes entry member
    exact written.fields ▸ unshadowed_others inner _

end DecoderTables
