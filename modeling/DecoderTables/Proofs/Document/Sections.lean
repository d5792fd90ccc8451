import DecoderTables.Proofs.Document.Entries

/-!
The sections of a document and the document itself, described by their members. A section keeps
every entry in its place, a section that is not there is empty, and each is there at most once.
-/

namespace DecoderTables
open Json

variable {α : Type}

/-- An instruction is any object; all its members are its fields. -/
def InstructionMembers (members fields : Members) : Prop :=
  fields = (Value.mergedMembers members).merged

theorem reads_instructionEntry {v : Value} {depth : Nat} (limit : v.depth ≤ depth) :
    Reads (instructionEntry depth) v (IsRecord InstructionMembers v) := by
  refine reads_isRecord limit (fun limit => ?_) fun {v} other => ?_
  · obtain ⟨depth, rfl, inside⟩ := Value.exists_members_limit limit
    exact reads_opened_object (answer_members_iff fun m member => reads_value (inside m member)) _
  · exact .of_mismatch (Value.begins_curly_eq_false other) _ _ fun _ => id

/-- The entries of a section are its members in the same order, also those of the same name. -/
def SectionMembers (holds : Value → α → Prop) (members : Members) (entries : Section α) : Prop :=
  List.Forall₂ (fun m entry => entry.1 = m.1 ∧ holds m.2 entry.2) members entries

theorem reads_sectionOf {entry : Nat → Reader α} {holds : Value → α → Prop}
    (each : ∀ {v : Value} {depth : Nat}, v.depth ≤ depth → Reads (entry depth) v (holds v))
    {v : Value} {depth : Nat} (limit : v.depth ≤ depth) :
    Reads (sectionOf entry depth) v (IsRecord (SectionMembers holds) v) := by
  refine reads_isRecord limit (fun {members} limit => ?_) fun other =>
    ((reads_objectOf_other other _ _ _ _).map _).congr fun _ =>
      ⟨fun ⟨_, never, _⟩ => never, False.elim⟩
  obtain ⟨depth, rfl, inside⟩ := Value.exists_members_limit limit
  have object : Reads (objectOf (depth + 1) "an object of named entries" ([] : Section α)
      fun depth entries name => .ok ((entry depth).map fun a => (name, a) :: entries))
      (.object members) (Folds (fun before m after => ∃ e : String × α,
        (e.1 = m.1 ∧ holds m.2 e.2) ∧ after = e :: before) [] members) :=
    reads_objectOf (fun depth entries name => .ok ((entry depth).map fun a => (name, a) :: entries))
      _ (fun m member before =>
        ((each (inside m member)).map fun a => (m.1, a) :: before).congr fun after => by
          simp [and_assoc]) _ _
  refine (object.map List.reverse).congr fun entries => ?_
  simp only [folds_cons (fun (m : String × Value) (e : String × α) => e.1 = m.1 ∧ holds m.2 e.2),
    List.append_nil]
  constructor
  · rintro ⟨_, ⟨new, all, rfl⟩, rfl⟩
    exact new.reverse_reverse.symm ▸ all
  · exact fun all => ⟨_, ⟨entries, all, rfl⟩, entries.reverse_reverse.symm⟩

/-- What a section is when its value is an object of records. -/
def IsSection (holds : Members → α → Prop) : Value → Section α → Prop :=
  IsRecord (SectionMembers (IsRecord holds))

/-- The document that the members of an object describe. -/
structure DocumentMembers (members : Members) (document : Document) : Prop where
  instructions : ∃ found, Slot "instructions" (IsSection InstructionMembers) members found ∧
    document.instructions = found.getD []
  decoders : ∃ found, Slot "decoders" (IsSection DecoderMembers) members found ∧
    document.decoders = found.getD []
  splitters : ∃ found, Slot "splitters" (IsSection SplitterMembers) members found ∧
    document.splitters = found.getD []
  opcodes : ∃ found, Slot "opcodes" (IsSection OpcodeMembers) members found ∧
    document.opcodes = found.getD []

namespace DocumentDraft

def Step (before : DocumentDraft) (m : String × Value) (after : DocumentDraft) : Prop :=
  SlotStep "instructions" (IsSection InstructionMembers) before.instructions m after.instructions ∧
    SlotStep "decoders" (IsSection DecoderMembers) before.decoders m after.decoders ∧
    SlotStep "splitters" (IsSection SplitterMembers) before.splitters m after.splitters ∧
    SlotStep "opcodes" (IsSection OpcodeMembers) before.opcodes m after.opcodes

theorem choose_reads {depth : Nat} (draft : DocumentDraft) (name : String) {v : Value}
    (limit : v.depth ≤ depth) : ChoiceReads (choose depth draft name) v (draft.Step (name, v)) := by
  obtain ⟨instructions, decoders, splitters, opcodes⟩ := draft
  unfold choose
  split
  · refine (choiceReads_once (reads_sectionOf reads_instructionEntry limit) _ _ _).congr
      fun ⟨_, _, _, _⟩ => ?_
    simp (disch := decide) only [Step, slotStep_self, slotStep_ne, mk.injEq, IsSection]
    grind
  · refine (choiceReads_once (reads_sectionOf reads_decoderEntry limit) _ _ _).congr
      fun ⟨_, _, _, _⟩ => ?_
    simp (disch := decide) only [Step, slotStep_self, slotStep_ne, mk.injEq, IsSection]
    grind
  · refine (choiceReads_once (reads_sectionOf reads_splitterEntry limit) _ _ _).congr
      fun ⟨_, _, _, _⟩ => ?_
    simp (disch := decide) only [Step, slotStep_self, slotStep_ne, mk.injEq, IsSection]
    grind
  · refine (choiceReads_once (reads_sectionOf reads_opcodeEntry limit) _ _ _).congr
      fun ⟨_, _, _, _⟩ => ?_
    simp (disch := decide) only [Step, slotStep_self, slotStep_ne, mk.injEq, IsSection]
    grind
  · next notInstructions notDecoders notSplitters notOpcodes =>
    refine ((reads_ignored v).map fun _ => _).congr fun ⟨_, _, _, _⟩ => ?_
    simp only [Step, slotStep_ne notInstructions, slotStep_ne notDecoders,
      slotStep_ne notSplitters, slotStep_ne notOpcodes, mk.injEq, exists_const, true_and]

theorem folds_iff (members : Members) (after : DocumentDraft) :
    Folds Step {} members after ↔
      Slot "instructions" (IsSection InstructionMembers) members after.instructions ∧
        Slot "decoders" (IsSection DecoderMembers) members after.decoders ∧
        Slot "splitters" (IsSection SplitterMembers) members after.splitters ∧
        Slot "opcodes" (IsSection OpcodeMembers) members after.opcodes := by
  rw [folds_four Step _ _ _ _ instructions decoders splitters opcodes mk (fun _ _ _ _ => rfl)
    (fun _ => rfl) fun _ _ _ => Iff.rfl, folds_slotStep_iff, folds_slotStep_iff,
    folds_slotStep_iff, folds_slotStep_iff]

end DocumentDraft

theorem reads_document {members : Members}
    (limit : (Value.object members).depth ≤ depthLimit) :
    Reads document (.object members) (DocumentMembers members) := by
  obtain ⟨depth, same, inside⟩ := Value.exists_members_limit limit
  have object : Reads (objectOf depthLimit "struct SpecDocument" {} DocumentDraft.choose)
      (.object members) (Folds DocumentDraft.Step {} members) := by
    rw [same]
    exact reads_objectOf _ _ (fun m member draft => draft.choose_reads m.1 (inside m member)) _ _
  refine ((reads_recordOf_object DocumentDraft.places object rfl).map DocumentDraft.finish).congr
    fun found => ?_
  simp only [DocumentDraft.folds_iff]
  constructor
  · rintro ⟨draft, ⟨instructions, decoders, splitters, opcodes⟩, rfl⟩
    exact ⟨⟨_, instructions, rfl⟩, ⟨_, decoders, rfl⟩, ⟨_, splitters, rfl⟩, ⟨_, opcodes, rfl⟩⟩
  · obtain ⟨_, _, _, _⟩ := found
    rintro ⟨⟨instructions, inInstructions, rfl⟩, ⟨decoders, inDecoders, rfl⟩,
      ⟨splitters, inSplitters, rfl⟩, ⟨opcodes, inOpcodes, rfl⟩⟩
    exact ⟨⟨instructions, decoders, splitters, opcodes⟩,
      ⟨inInstructions, inDecoders, inSplitters, inOpcodes⟩, rfl⟩

theorem readAll_eq_ok_iff {read : Reader α} {v : Value} {holds : α → Prop}
    (reads : Reads read v holds) {before text after : List Char} (form : v.Form text)
    (blankBefore : Blank before) (blankAfter : Blank after) (a : α) :
    readAll read (before ++ (text ++ after)) = .ok a ↔ holds a := by
  have skipped : skipSpace after = [] := by
    simpa [skipSpace] using skipSpace_append blankAfter []
  have ends : Ends after := by
    have nothing : Ends [] := trivial
    simpa using ends_append blankAfter nothing
  have answers := reads blankBefore form (ends.endsBefore v)
  unfold readAll
  rw [bind_eq_ok_iff]
  constructor
  · rintro ⟨⟨b, rest⟩, read, whole⟩
    have answer := (seen_eq_some_iff _ _).mpr ⟨rest.shorter, read⟩
    obtain ⟨held, all⟩ := (answers b rest.chars).mp answer
    dsimp only at whole
    rw [all, skipped] at whole
    cases whole
    exact held
  · intro held
    obtain ⟨shorter, read⟩ := (seen_eq_some_iff _ _).mp ((answers a after).mpr ⟨held, rfl⟩)
    refine ⟨(a, ⟨after, shorter⟩), read, ?_⟩
    dsimp only
    rw [skipped]
    rfl

/-- A document is read from an object exactly when it is the one that the members describe. -/
theorem Document.read_eq_ok_iff {members : Members} {before text after : List Char}
    (limit : (Value.object members).depth ≤ depthLimit)
    (form : (Value.object members).Form text) (blankBefore : Blank before)
    (blankAfter : Blank after) (found : Document) :
    Document.read (String.ofList (before ++ (text ++ after))) = .ok found ↔
      DocumentMembers members found := by
  rw [Document.read, String.toList_ofList]
  exact readAll_eq_ok_iff (reads_document limit) form blankBefore blankAfter found

end DecoderTables
