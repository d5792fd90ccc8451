import DecoderTables.Proofs.Document.Entries
import DecoderTables.Proofs.Json.Writing

/-!
Which entries of a section are accepted. The known members occur at most once, the required one
occurs, and each has a value of its shape; all other members are the fields of the record, where a
repeated name keeps the place of its first and the value of its last occurrence.
-/

namespace DecoderTables
open Json

/-- The sections whose entries are records. -/
inductive RecordKind where
  | decoder
  | splitter
  | opcode

/-- A member that a record knows. -/
structure KnownMember where
  name : String
  required : Bool
  shape : Value → Prop

namespace RecordKind

def Entry : RecordKind → Type
  | .decoder => DecoderEntry
  | .splitter => SplitterEntry
  | .opcode => OpcodeEntry

def read : (kind : RecordKind) → Nat → Reader kind.Entry
  | .decoder => decoderEntry
  | .splitter => splitterEntry
  | .opcode => opcodeEntry

def fields : (kind : RecordKind) → kind.Entry → Members
  | .decoder => DecoderEntry.fields
  | .splitter => SplitterEntry.fields
  | .opcode => OpcodeEntry.fields

/-- The known members, when `pattern` says how a pattern is written. -/
def knownWith (pattern : Value → PatternEntry → Prop) : RecordKind → List KnownMember
  | .decoder =>
      [⟨"instruction", true, fun v => ∃ s, IsText v s⟩,
        ⟨"flags", false, fun v => ∃ texts, AreTexts v texts⟩,
        ⟨"pattern", false, fun v => ∃ found, OrNull pattern v found⟩]
  | .splitter => [⟨"flags", false, fun v => ∃ texts, AreTexts v texts⟩]
  | .opcode => [⟨"decoder", true, fun v => ∃ s, IsText v s⟩]

def known : RecordKind → List KnownMember :=
  knownWith IsPattern

/-- The members that become the fields of the record. -/
def otherMembers (kind : RecordKind) (members : Members) : Members :=
  members.others (kind.known.map (·.name))

end RecordKind

/-- A known member is there at most once, and at least once if it is required. -/
structure KnownMember.Fits (known : KnownMember) (members : Members) : Prop where
  once : (members.valuesOf known.name).length ≤ 1
  present : known.required = true → known.name ∈ members.names
  shape : ∀ v ∈ members.valuesOf known.name, known.shape v

def RecordKind.Acceptable (kind : RecordKind) (members : Members) : Prop :=
  ∀ known ∈ kind.known, known.Fits members

/-- As `Acceptable`, for patterns that are written as objects only. -/
def RecordKind.AcceptableAsObjects (kind : RecordKind) (members : Members) : Prop :=
  ∀ known ∈ kind.knownWith (IsRecord PatternMembers), known.Fits members

theorem mem_names_iff (members : Members) (name : String) :
    name ∈ members.names ↔ members.valuesOf name ≠ [] := by
  simp [Members.valuesOf, Members.names, List.filter_eq_nil_iff]

theorem exists_slot_iff {α : Type} (name : String) (holds : Value → α → Prop)
    (members : Members) :
    (∃ found, Slot name holds members found) ↔
      KnownMember.Fits ⟨name, false, fun v => ∃ a, holds v a⟩ members := by
  constructor
  · rintro ⟨found, slot⟩
    cases found with
    | none =>
      rw [Slot] at slot
      exact ⟨by simp [slot], by simp, by simp [slot]⟩
    | some a =>
      obtain ⟨v, only, held⟩ := slot
      exact ⟨by simp [only], by simp, by simpa [only] using ⟨a, held⟩⟩
  · rintro ⟨once, _, shape⟩
    rcases only : members.valuesOf name with _ | ⟨v, _ | _⟩
    · exact ⟨none, only⟩
    · obtain ⟨a, held⟩ := shape v (by simp [only])
      exact ⟨some a, v, only, held⟩
    · simp [only] at once

theorem exists_slot_some_iff {α : Type} (name : String) (holds : Value → α → Prop)
    (members : Members) :
    (∃ a, Slot name holds members (some a)) ↔
      KnownMember.Fits ⟨name, true, fun v => ∃ a, holds v a⟩ members := by
  constructor
  · rintro ⟨a, slot⟩
    obtain ⟨once, _, shape⟩ := (exists_slot_iff name holds members).mp ⟨some a, slot⟩
    obtain ⟨v, only, _⟩ := slot
    exact ⟨once, fun _ => (mem_names_iff members name).mpr (by simp [only]), shape⟩
  · rintro ⟨once, present, shape⟩
    obtain ⟨found, slot⟩ := (exists_slot_iff name holds members).mpr ⟨once, nofun, shape⟩
    cases found with
    | none => exact absurd slot ((mem_names_iff members name).mp (present rfl))
    | some a => exact ⟨a, slot⟩

theorem exists_decoderMembers_iff (members : Members) :
    (∃ entry, DecoderMembers members entry) ↔ RecordKind.decoder.Acceptable members := by
  simp only [RecordKind.Acceptable, RecordKind.known, RecordKind.knownWith,
    List.forall_mem_cons, ← exists_slot_some_iff,
    ← exists_slot_iff]
  constructor
  · rintro ⟨entry, named, ⟨_, flagged, _⟩, ⟨_, fitted, _⟩, _⟩
    exact ⟨⟨_, named⟩, ⟨_, flagged⟩, ⟨_, fitted⟩, nofun⟩
  · rintro ⟨⟨_, named⟩, ⟨_, flagged⟩, ⟨_, fitted⟩, _⟩
    exact ⟨⟨_, _, _, _⟩, named, ⟨_, flagged, rfl⟩, ⟨_, fitted, rfl⟩, rfl⟩

theorem exists_splitterMembers_iff (members : Members) :
    (∃ entry, SplitterMembers members entry) ↔ RecordKind.splitter.Acceptable members := by
  simp only [RecordKind.Acceptable, RecordKind.known, RecordKind.knownWith,
    List.forall_mem_cons, ← exists_slot_iff]
  constructor
  · rintro ⟨entry, ⟨_, flagged, _⟩, _⟩
    exact ⟨⟨_, flagged⟩, nofun⟩
  · rintro ⟨⟨_, flagged⟩, _⟩
    exact ⟨⟨_, _⟩, ⟨_, flagged, rfl⟩, rfl⟩

theorem exists_opcodeMembers_iff (members : Members) :
    (∃ entry, OpcodeMembers members entry) ↔ RecordKind.opcode.Acceptable members := by
  simp only [RecordKind.Acceptable, RecordKind.known, RecordKind.knownWith,
    List.forall_mem_cons, ← exists_slot_some_iff]
  constructor
  · rintro ⟨entry, named, _⟩
    exact ⟨⟨_, named⟩, nofun⟩
  · rintro ⟨⟨_, named⟩, _⟩
    exact ⟨⟨_, _⟩, named, rfl⟩

namespace RecordKind

/-- The record that the members of an object describe. -/
def Describes : (kind : RecordKind) → Members → kind.Entry → Prop
  | .decoder => DecoderMembers
  | .splitter => SplitterMembers
  | .opcode => OpcodeMembers

theorem reads_object (kind : RecordKind) {members : Members} {depth : Nat}
    (limit : (Value.object members).depth ≤ depth) :
    Reads (kind.read depth) (.object members) (kind.Describes members) := by
  cases kind with
  | decoder => exact reads_decoderObject limit
  | splitter => exact reads_splitterObject limit
  | opcode => exact reads_opcodeObject limit

theorem exists_describes_iff (kind : RecordKind) (members : Members) :
    (∃ entry, kind.Describes members entry) ↔ kind.Acceptable members := by
  cases kind with
  | decoder => exact exists_decoderMembers_iff members
  | splitter => exact exists_splitterMembers_iff members
  | opcode => exact exists_opcodeMembers_iff members

theorem fields_of_describes (kind : RecordKind) {members : Members} {entry : kind.Entry}
    (describes : kind.Describes members entry) :
    kind.fields entry = (Value.mergedMembers (kind.otherMembers members)).merged := by
  cases kind with
  | decoder => exact DecoderMembers.fields describes
  | splitter => exact SplitterMembers.fields describes
  | opcode => exact OpcodeMembers.fields describes

section Texts

variable (kind : RecordKind) {members : Members} {depth : Nat} {space text : List Char}
  (limit : (Value.object members).depth ≤ depth) (blank : Blank space)
  (form : (Value.object members).Form text) (rest : List Char)

include limit blank form

theorem described_of_read {entry : kind.Entry} {left : Rest (space ++ (text ++ rest))}
    (read : kind.read depth (space ++ (text ++ rest)) = .ok (entry, left)) :
    kind.Describes members entry ∧ left.chars = rest :=
  (kind.reads_object limit blank form trivial entry left.chars).mp
    ((seen_eq_some_iff _ _).mpr ⟨left.shorter, read⟩)

theorem exists_read_of_acceptable (acceptable : kind.Acceptable members) :
    ∃ entry left, kind.read depth (space ++ (text ++ rest)) = .ok (entry, left) ∧
      left.chars = rest := by
  obtain ⟨entry, describes⟩ := (kind.exists_describes_iff members).mpr acceptable
  have answer := (kind.reads_object limit blank form trivial entry rest).mpr ⟨describes, rfl⟩
  obtain ⟨shorter, read⟩ := (seen_eq_some_iff _ _).mp answer
  exact ⟨entry, ⟨rest, shorter⟩, read, rfl⟩

/-- An entry is read, whatever stands behind it, exactly when its known members are there as often
as they may and have their shapes; its fields are all other members, merged. -/
theorem read_iff_acceptable :
    ((∃ entry left, kind.read depth (space ++ (text ++ rest)) = .ok (entry, left)) ↔
        kind.Acceptable members) ∧
      ∀ entry left, kind.read depth (space ++ (text ++ rest)) = .ok (entry, left) →
        left.chars = rest ∧
          kind.fields entry = (Value.mergedMembers (kind.otherMembers members)).merged := by
  constructor
  · constructor
    · rintro ⟨entry, left, read⟩
      have described := kind.described_of_read limit blank form rest read
      exact (kind.exists_describes_iff members).mp ⟨entry, described.1⟩
    · intro acceptable
      obtain ⟨entry, left, read, _⟩ :=
        kind.exists_read_of_acceptable limit blank form rest acceptable
      exact ⟨entry, left, read⟩
  · intro entry left read
    obtain ⟨describes, left⟩ := kind.described_of_read limit blank form rest read
    exact ⟨left, kind.fields_of_describes describes⟩

end Texts

/-- A decoder with a member that it does not know, twice, around the one that it requires. -/
def interleaved : Members :=
  [("x", .bool true), ("instruction", .string "nop"), ("x", .array [.null])]

theorem acceptable_interleaved : decoder.Acceptable interleaved := by
  rw [← exists_describes_iff]
  refine ⟨⟨"nop", [], none, _⟩, ⟨?_, ⟨none, ?_, rfl⟩, ⟨none, ?_, rfl⟩, rfl⟩⟩
  · exact ⟨_, rfl, rfl⟩
  · exact rfl
  · exact rfl

theorem floatFree_interleaved : (Value.object interleaved).FloatFree := by
  refine .object fun m member => ?_
  simp only [interleaved, List.mem_cons, List.not_mem_nil, or_false] at member
  rcases member with rfl | rfl | rfl
  · exact .bool true
  · exact .string "nop"
  · exact .array fun item member => List.mem_singleton.mp member ▸ .null

theorem read_iff_acceptable_interleaved :
    ∃ entry left, decoder.read 2 (Value.object interleaved).compact = .ok (entry, left) ∧
      left.chars = [] ∧ decoder.fields entry = [("x", .array [.null])] := by
  have limit : (Value.object interleaved).depth ≤ 2 := by decide
  have read := decoder.read_iff_acceptable limit blank_nil floatFree_interleaved.form_compact []
  rw [List.append_nil, List.nil_append] at read
  obtain ⟨entry, left, found⟩ := read.1.mpr acceptable_interleaved
  obtain ⟨all, fields⟩ := read.2 entry left found
  exact ⟨entry, left, found, all, fields.trans rfl⟩

/-- A pattern as a list of its lower half. -/
def listedPattern : Value :=
  .array [.string "xxxxxxxxxxxxxxxx"]

/-- A decoder whose pattern is a list. -/
def listed : Members :=
  [("instruction", .string "nop"), ("pattern", listedPattern)]

theorem acceptable_listed : decoder.Acceptable listed := by
  rw [← exists_describes_iff]
  let pattern : PatternEntry := ⟨"xxxxxxxxxxxxxxxx", none⟩
  refine ⟨⟨"nop", [], some pattern, []⟩, ⟨?_, ⟨none, ?_, rfl⟩, ⟨some (some pattern), ?_, rfl⟩, ?_⟩⟩
  · exact ⟨_, rfl, rfl⟩
  · exact rfl
  · exact ⟨listedPattern, rfl, .alone _⟩
  · exact rfl

/-- A list is neither null nor an object. -/
theorem not_acceptableAsObjects_listed : ¬decoder.AcceptableAsObjects listed := by
  intro acceptable
  have fits : KnownMember.Fits ⟨"pattern", false, fun v =>
      ∃ found, OrNull (IsRecord PatternMembers) v found⟩ listed :=
    acceptable _ (by simp [knownWith])
  rw [← exists_slot_iff] at fits
  obtain ⟨_ | _ | entry, slot⟩ := fits
  · cases slot
  · obtain ⟨v, only, null⟩ := slot
    cases only
    cases null
  · obtain ⟨v, only, members, object, _⟩ := slot
    cases only
    cases object

theorem floatFree_listed : (Value.object listed).FloatFree := by
  refine .object fun m member => ?_
  simp only [listed, List.mem_cons, List.not_mem_nil, or_false] at member
  rcases member with rfl | rfl
  · exact .string "nop"
  · exact .array fun item member => List.mem_singleton.mp member ▸ .string _

/-- A decoder may be read although its pattern is neither null nor written as an object. -/
theorem exists_read_listed :
    (∃ entry left, decoder.read 2 (Value.object listed).compact = .ok (entry, left) ∧
      left.chars = []) ∧ ¬decoder.AcceptableAsObjects listed := by
  apply And.intro _ not_acceptableAsObjects_listed
  have limit : (Value.object listed).depth ≤ 2 := by decide
  have read := decoder.exists_read_of_acceptable limit blank_nil floatFree_listed.form_compact []
    acceptable_listed
  rwa [List.append_nil, List.nil_append] at read

end RecordKind

end DecoderTables
