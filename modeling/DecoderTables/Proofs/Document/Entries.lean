import DecoderTables.Proofs.Document.Members

/-!
The entries of the sections of a document, described by their members: each known member at most
once, the required one once, each with a value of its shape, and all others merged. An entry is
read from a text of an object exactly when it is the one that the members describe.
-/

namespace DecoderTables
open Json

def IsText (v : Value) (s : String) : Prop :=
  v = .string s

def AreTexts (v : Value) (texts : List String) : Prop :=
  v = .array (texts.map .string)

/-- What holds of the members of an object; nothing holds of another value. -/
def IsRecord {α : Type} (holds : Members → α → Prop) (v : Value) (a : α) : Prop :=
  ∃ members, v = .object members ∧ holds members a

theorem reads_isRecord {α : Type} {read : Reader α} {holds : Members → α → Prop} {v : Value}
    {depth : Nat} (limit : v.depth ≤ depth)
    (object : ∀ {members}, (Value.object members).depth ≤ depth →
      Reads read (.object members) (holds members))
    (other : ∀ {v}, (∀ members, v ≠ .object members) → Reads read v fun _ => False) :
    Reads read v (IsRecord holds v) := by
  cases v with
  | object members => exact (object limit).congr fun a => by simp [IsRecord]
  | _ => exact (other (fun _ same => by cases same)).congr fun a => by simp [IsRecord]

structure PatternMembers (members : Members) (entry : PatternEntry) : Prop where
  lo : Slot "lo" IsText members (some entry.lo)
  hi : ∃ found, Slot "hi" (OrNull IsText) members found ∧ entry.hi = found.getD none

/-- A pattern is an object, or a list of its one or two halves. -/
inductive IsPattern : Value → PatternEntry → Prop
  | object {members : Members} {entry : PatternEntry} (fits : PatternMembers members entry) :
      IsPattern (.object members) entry
  | alone (lo : String) : IsPattern (.array [.string lo]) ⟨lo, none⟩
  | both (lo : String) {v : Value} {hi : Option String} (upper : OrNull IsText v hi) :
      IsPattern (.array [.string lo, v]) ⟨lo, hi⟩

theorem not_orNull_text_null (s : String) : ¬IsText .null s := nofun

namespace PatternDraft

def Step (before : PatternDraft) (m : String × Value) (after : PatternDraft) : Prop :=
  SlotStep "lo" IsText before.lo m after.lo ∧
    SlotStep "hi" (OrNull IsText) before.hi m after.hi

theorem choose_reads (draft : PatternDraft) (name : String) (v : Value) :
    ChoiceReads (draft.choose name) v (draft.Step (name, v)) := by
  obtain ⟨beforeLo, beforeHi⟩ := draft
  unfold choose
  split
  · refine (choiceReads_once (reads_string v) _ _ _).congr fun ⟨lo, hi⟩ => ?_
    simp (disch := decide) only [Step, slotStep_self, slotStep_ne, mk.injEq, IsText]
    grind
  · refine (choiceReads_once (reads_optional (reads_string v) not_orNull_text_null) _ _ _).congr
      fun ⟨lo, hi⟩ => ?_
    simp (disch := decide) only [Step, slotStep_self, slotStep_ne, mk.injEq]
    grind
  · next notLo notHi =>
    refine ((reads_ignored v).map fun _ => _).congr fun ⟨lo, hi⟩ => ?_
    simp only [Step, slotStep_ne notLo, slotStep_ne notHi, mk.injEq, exists_const, true_and]

theorem folds_iff (members : Members) (after : PatternDraft) :
    Folds Step {} members after ↔
      Slot "lo" IsText members after.lo ∧ Slot "hi" (OrNull IsText) members after.hi := by
  rw [folds_two Step _ _ lo hi mk (fun _ _ => rfl) (fun _ => rfl) fun _ _ _ => Iff.rfl,
    folds_slotStep_iff, folds_slotStep_iff]

/-- What the halves that were read make of a pattern. -/
def Finishes (draft : PatternDraft) (entry : PatternEntry) : Prop :=
  draft.lo = some entry.lo ∧ entry.hi = draft.hi.getD none

theorem finish_eq_ok_iff (asList : Bool) (draft : PatternDraft) (entry : PatternEntry) :
    draft.finish asList = .ok entry ↔ draft.Finishes entry := by
  obtain ⟨lo, hi⟩ := draft
  obtain ⟨entryLo, entryHi⟩ := entry
  cases lo with
  | none => simp [finish, Finishes]
  | some lo => simp [finish, Finishes, @eq_comm _ entryHi]

end PatternDraft

theorem answer_patternEntry_iff (depth : Nat) (text : List Char) (entry : PatternEntry)
    (left : List Char) :
    (patternEntry depth).answer text = some (entry, left) ↔
      ∃ draft, (recordOf depth "struct PatternSpec" {} (fun _ => PatternDraft.choose)
        fun _ => PatternDraft.places).answer text = some (draft, left) ∧ draft.Finishes entry := by
  refine (seen_finish_iff _ (PatternDraft.finish ((skipSpace text).head? = some '['))
    (fun _ entry => entry) entry left).trans (exists_congr fun draft => and_congr_right fun _ => ?_)
  simp only [PatternDraft.finish_eq_ok_iff, @eq_comm _ entry, exists_eq_right]

theorem isPattern_object_iff (members : Members) (entry : PatternEntry) :
    (∃ draft, Folds PatternDraft.Step {} members draft ∧ draft.Finishes entry) ↔
      IsPattern (.object members) entry := by
  simp only [PatternDraft.folds_iff]
  constructor
  · rintro ⟨⟨_, hi⟩, ⟨lower, upper⟩, rfl, made⟩
    exact .object ⟨lower, hi, upper, made⟩
  · rintro (_ | _)
    next fits =>
      obtain ⟨lower, hi, upper, made⟩ := fits
      exact ⟨⟨_, hi⟩, ⟨lower, upper⟩, rfl, made⟩

/-- What the places of a list do to the halves. -/
def PatternDraft.placeSteps : List (PatternDraft → Value → PatternDraft → Prop) :=
  [fun before v after => ∃ s, IsText v s ∧ after = { before with lo := some s },
    fun before v after => ∃ hi, OrNull IsText v hi ∧ after = { before with hi := some hi }]

theorem isPattern_array_iff (items : List Value) (entry : PatternEntry) :
    (∃ draft, Fills PatternDraft.placeSteps {} items draft ∧ draft.Finishes entry) ↔
      IsPattern (.array items) entry := by
  obtain ⟨entryLo, entryHi⟩ := entry
  constructor
  · rintro ⟨draft, fills, finishes⟩
    match items with
    | [] =>
      obtain rfl : draft = {} := fills
      cases finishes.1
    | [_] =>
      obtain ⟨_, ⟨lo, rfl, rfl⟩, same⟩ := fills
      obtain rfl : draft = _ := same
      obtain ⟨lower, upper⟩ := finishes
      cases lower
      cases upper
      exact .alone _
    | [_, _] =>
      obtain ⟨_, ⟨lo, rfl, rfl⟩, _, ⟨hi, text, rfl⟩, same⟩ := fills
      obtain rfl : draft = _ := same
      obtain ⟨lower, upper⟩ := finishes
      cases lower
      cases upper
      exact .both _ text
    | _ :: _ :: _ :: _ =>
      obtain ⟨_, _, _, _, never⟩ := fills
      exact never.elim
  · rintro (_ | _ | ⟨_, upper⟩)
    · exact ⟨⟨some entryLo, none⟩, ⟨_, ⟨entryLo, rfl, rfl⟩, rfl⟩, rfl, rfl⟩
    · exact ⟨⟨some entryLo, some entryHi⟩,
        ⟨_, ⟨entryLo, rfl, rfl⟩, _, ⟨entryHi, upper, rfl⟩, rfl⟩, rfl, rfl⟩

theorem reads_patternEntry_scalar {v : Value} (object : ∀ members, v ≠ .object members)
    (array : ∀ items, v ≠ .array items) (depth : Nat) :
    Reads (patternEntry depth) v (IsPattern v) := by
  have unlisted : v.begins '[' = false := by
    cases v with
    | array items => exact absurd rfl (array items)
    | bool b => cases b <;> rfl
    | _ => rfl
  refine ((reads_recordOf_object _ (reads_objectOf_other object depth _ _ _) unlisted).finish
    (answer_patternEntry_iff depth)).congr fun entry => ⟨fun ⟨_, never, _⟩ => never.elim, ?_⟩
  rintro (_ | _ | _)
  · exact absurd rfl (object _)
  · exact absurd rfl (array _)
  · exact absurd rfl (array _)

theorem reads_patternEntry {v : Value} {depth : Nat} (limit : v.depth ≤ depth) :
    Reads (patternEntry depth) v (IsPattern v) := by
  cases v with
  | object members =>
    obtain ⟨depth, rfl, _⟩ := Value.exists_members_limit limit
    have object : Reads (objectOf (depth + 1) "struct PatternSpec" {} fun _ => PatternDraft.choose)
        (.object members) (Folds PatternDraft.Step {} members) :=
      reads_objectOf _ _ (fun m _ draft => draft.choose_reads m.1 m.2) _ _
    exact ((reads_recordOf_object _ object rfl).finish (answer_patternEntry_iff _)).congr
      (isPattern_object_iff members)
  | array items =>
    obtain ⟨depth, rfl, _⟩ := Value.exists_items_limit limit
    have each : List.Forall₂ (fun reader step => ∀ v ∈ items, ∀ before, Reads (reader before) v
        (step before v)) PatternDraft.places PatternDraft.placeSteps :=
      .cons (fun v _ before => (reads_string v).map _) (.cons (fun v _ before =>
        (reads_optional (reads_string v) not_orNull_text_null).map _) .nil)
    have list : Reads (opened '[' "struct PatternSpec" (deeper (depth + 1) fun _ =>
        places PatternDraft.places true {})) (.array items)
        (Fills PatternDraft.placeSteps {} items) :=
      reads_opened_array (fun form rest => seen_places_iff each form rest {}) _
    exact ((reads_recordOf_array list).finish (answer_patternEntry_iff _)).congr
      (isPattern_array_iff items)
  | _ =>
    exact reads_patternEntry_scalar (fun _ same => by cases same) (fun _ same => by cases same)
      depth

theorem not_orNull_pattern_null (entry : PatternEntry) : ¬IsPattern .null entry := nofun

/-- The decoder that the members of an object describe. -/
structure DecoderMembers (members : Members) (entry : DecoderEntry) : Prop where
  instruction : Slot "instruction" IsText members (some entry.instruction)
  flags : ∃ found, Slot "flags" AreTexts members found ∧ entry.flags = found.getD []
  pattern : ∃ found, Slot "pattern" (OrNull IsPattern) members found ∧
    entry.pattern = found.getD none
  fields : entry.fields =
    (Value.mergedMembers (members.others ["instruction", "flags", "pattern"])).merged

structure SplitterMembers (members : Members) (entry : SplitterEntry) : Prop where
  flags : ∃ found, Slot "flags" AreTexts members found ∧ entry.flags = found.getD []
  fields : entry.fields = (Value.mergedMembers (members.others ["flags"])).merged

structure OpcodeMembers (members : Members) (entry : OpcodeEntry) : Prop where
  decoder : Slot "decoder" IsText members (some entry.decoder)
  fields : entry.fields = (Value.mergedMembers (members.others ["decoder"])).merged

theorem required_eq_ok_iff {α : Type} (name : String) (found : Option α) (a : α) :
    required name found = .ok a ↔ found = some a := by
  cases found with
  | none => exact ⟨nofun, nofun⟩
  | some b => exact ⟨fun same => congrArg some (Except.ok.inj same),
      fun same => congrArg Except.ok (Option.some.inj same)⟩

namespace DecoderDraft

def Step (before : DecoderDraft) (m : String × Value) (after : DecoderDraft) : Prop :=
  SlotStep "instruction" IsText before.instruction m after.instruction ∧
    SlotStep "flags" AreTexts before.flags m after.flags ∧
    SlotStep "pattern" (OrNull IsPattern) before.pattern m after.pattern ∧
    OtherStep ["instruction", "flags", "pattern"] before.fields m after.fields

theorem choose_reads {depth : Nat} (draft : DecoderDraft) (name : String) {v : Value}
    (limit : v.depth ≤ depth) : ChoiceReads (choose depth draft name) v (draft.Step (name, v)) := by
  obtain ⟨instruction, flags, pattern, fields⟩ := draft
  unfold choose
  split
  · refine (choiceReads_once (reads_string v) _ _ _).congr fun ⟨_, _, _, _⟩ => ?_
    simp (disch := decide) only [Step, slotStep_self, slotStep_ne, otherStep_known, mk.injEq,
      IsText]
    grind
  · refine (choiceReads_once (reads_strings limit) _ _ _).congr fun ⟨_, _, _, _⟩ => ?_
    simp (disch := decide) only [Step, slotStep_self, slotStep_ne, otherStep_known, mk.injEq,
      AreTexts]
    grind
  · refine (choiceReads_once (reads_optional (reads_patternEntry limit) not_orNull_pattern_null)
      _ _ _).congr fun ⟨_, _, _, _⟩ => ?_
    simp (disch := decide) only [Step, slotStep_self, slotStep_ne, otherStep_known, mk.injEq]
    grind
  · next notInstruction notFlags notPattern =>
    have other : name ∉ ["instruction", "flags", "pattern"] := by
      simpa using ⟨notInstruction, notFlags, notPattern⟩
    refine (choiceReads_otherMember limit _ _ _).congr fun ⟨_, _, _, _⟩ => ?_
    simp only [Step, slotStep_ne notInstruction, slotStep_ne notFlags, slotStep_ne notPattern,
      otherStep_other other, mk.injEq]

theorem folds_iff (members : Members) (after : DecoderDraft) :
    Folds Step {} members after ↔
      Slot "instruction" IsText members after.instruction ∧
        Slot "flags" AreTexts members after.flags ∧
        Slot "pattern" (OrNull IsPattern) members after.pattern ∧
        after.fields =
          (Value.mergedMembers (members.others ["instruction", "flags", "pattern"])).merged := by
  rw [folds_four Step _ _ _ _ instruction flags pattern fields mk (fun _ _ _ _ => rfl)
    (fun _ => rfl) fun _ _ _ => Iff.rfl, folds_slotStep_iff, folds_slotStep_iff,
    folds_slotStep_iff, folds_otherStep_iff]

/-- What the members that were read make of a decoder. -/
def Finishes (draft : DecoderDraft) (entry : DecoderEntry) : Prop :=
  draft.instruction = some entry.instruction ∧ entry.flags = draft.flags.getD [] ∧
    entry.pattern = draft.pattern.getD none ∧ entry.fields = draft.fields

end DecoderDraft

theorem answer_decoderEntry_iff (depth : Nat) (text : List Char) (entry : DecoderEntry)
    (left : List Char) :
    (decoderEntry depth).answer text = some (entry, left) ↔
      ∃ draft, (objectOf depth "struct DecoderSpec" {} DecoderDraft.choose).answer text =
        some (draft, left) ∧ draft.Finishes entry := by
  refine (seen_finish_iff _ (fun draft : DecoderDraft => required "instruction" draft.instruction)
    (fun draft instruction => DecoderEntry.mk instruction (draft.flags.getD [])
      (draft.pattern.getD none) draft.fields) entry left).trans
    (exists_congr fun draft => and_congr_right fun _ => ?_)
  obtain ⟨entryInstruction, entryFlags, entryPattern, entryFields⟩ := entry
  simp only [required_eq_ok_iff, DecoderDraft.Finishes, DecoderEntry.mk.injEq]
  grind

theorem reads_decoderObject {members : Members} {depth : Nat}
    (limit : (Value.object members).depth ≤ depth) :
    Reads (decoderEntry depth) (.object members) (DecoderMembers members) := by
  obtain ⟨depth, rfl, inside⟩ := Value.exists_members_limit limit
  have object : Reads (objectOf (depth + 1) "struct DecoderSpec" {} DecoderDraft.choose)
      (.object members) (Folds DecoderDraft.Step {} members) :=
    reads_objectOf _ _ (fun m member draft => draft.choose_reads m.1 (inside m member)) _ _
  refine (object.finish (answer_decoderEntry_iff _)).congr fun entry => ?_
  simp only [DecoderDraft.folds_iff]
  constructor
  · rintro ⟨draft, ⟨named, flagged, fitted, gathered⟩, instruction, flags, pattern, fields⟩
    exact ⟨instruction ▸ named, ⟨_, flagged, flags⟩, ⟨_, fitted, pattern⟩, fields.trans gathered⟩
  · rintro ⟨named, ⟨flags, flagged, sameFlags⟩, ⟨pattern, fitted, samePattern⟩, gathered⟩
    exact ⟨⟨some entry.instruction, flags, pattern, entry.fields⟩,
      ⟨named, flagged, fitted, gathered⟩, rfl, sameFlags, samePattern, rfl⟩

theorem reads_decoderEntry {v : Value} {depth : Nat} (limit : v.depth ≤ depth) :
    Reads (decoderEntry depth) v (IsRecord DecoderMembers v) :=
  reads_isRecord limit reads_decoderObject fun other =>
    ((reads_objectOf_other other _ _ _ _).finish (answer_decoderEntry_iff depth)).congr
      fun _ => ⟨fun ⟨_, never, _⟩ => never, False.elim⟩

namespace SplitterDraft

def Step (before : SplitterDraft) (m : String × Value) (after : SplitterDraft) : Prop :=
  SlotStep "flags" AreTexts before.flags m after.flags ∧
    OtherStep ["flags"] before.fields m after.fields

theorem choose_reads {depth : Nat} (draft : SplitterDraft) (name : String) {v : Value}
    (limit : v.depth ≤ depth) : ChoiceReads (choose depth draft name) v (draft.Step (name, v)) := by
  obtain ⟨flags, fields⟩ := draft
  unfold choose
  split
  · refine (choiceReads_once (reads_strings limit) _ _ _).congr fun ⟨_, _⟩ => ?_
    simp (disch := decide) only [Step, slotStep_self, otherStep_known, mk.injEq, AreTexts]
    grind
  · next notFlags =>
    have other : name ∉ ["flags"] := by simpa using notFlags
    refine (choiceReads_otherMember limit _ _ _).congr fun ⟨_, _⟩ => ?_
    simp only [Step, slotStep_ne notFlags, otherStep_other other, mk.injEq]

theorem folds_iff (members : Members) (after : SplitterDraft) :
    Folds Step {} members after ↔ Slot "flags" AreTexts members after.flags ∧
      after.fields = (Value.mergedMembers (members.others ["flags"])).merged := by
  rw [folds_two Step _ _ flags fields mk (fun _ _ => rfl) (fun _ => rfl) fun _ _ _ => Iff.rfl,
    folds_slotStep_iff, folds_otherStep_iff]

end SplitterDraft

theorem splitterEntry_eq (depth : Nat) :
    splitterEntry depth = (objectOf depth "struct SplitterSpec" {} SplitterDraft.choose).map
      fun draft => SplitterEntry.mk (draft.flags.getD []) draft.fields :=
  rfl

theorem reads_splitterObject {members : Members} {depth : Nat}
    (limit : (Value.object members).depth ≤ depth) :
    Reads (splitterEntry depth) (.object members) (SplitterMembers members) := by
  obtain ⟨depth, rfl, inside⟩ := Value.exists_members_limit limit
  have object : Reads (objectOf (depth + 1) "struct SplitterSpec" {} SplitterDraft.choose)
      (.object members) (Folds SplitterDraft.Step {} members) :=
    reads_objectOf _ _ (fun m member draft => draft.choose_reads m.1 (inside m member)) _ _
  rw [splitterEntry_eq]
  refine (object.map _).congr fun entry => ?_
  simp only [SplitterDraft.folds_iff]
  constructor
  · rintro ⟨draft, ⟨flagged, gathered⟩, rfl⟩
    exact ⟨⟨_, flagged, rfl⟩, gathered⟩
  · obtain ⟨_, fields⟩ := entry
    rintro ⟨⟨flags, flagged, rfl⟩, gathered⟩
    exact ⟨⟨flags, fields⟩, ⟨flagged, gathered⟩, rfl⟩

theorem reads_splitterEntry {v : Value} {depth : Nat} (limit : v.depth ≤ depth) :
    Reads (splitterEntry depth) v (IsRecord SplitterMembers v) := by
  refine reads_isRecord limit reads_splitterObject fun other => ?_
  rw [splitterEntry_eq]
  exact ((reads_objectOf_other other _ _ _ _).map _).congr
    fun _ => ⟨fun ⟨_, never, _⟩ => never, False.elim⟩

namespace OpcodeDraft

def Step (before : OpcodeDraft) (m : String × Value) (after : OpcodeDraft) : Prop :=
  SlotStep "decoder" IsText before.decoder m after.decoder ∧
    OtherStep ["decoder"] before.fields m after.fields

theorem choose_reads {depth : Nat} (draft : OpcodeDraft) (name : String) {v : Value}
    (limit : v.depth ≤ depth) : ChoiceReads (choose depth draft name) v (draft.Step (name, v)) := by
  obtain ⟨decoder, fields⟩ := draft
  unfold choose
  split
  · refine (choiceReads_once (reads_string v) _ _ _).congr fun ⟨_, _⟩ => ?_
    simp (disch := decide) only [Step, slotStep_self, otherStep_known, mk.injEq, IsText]
    grind
  · next notDecoder =>
    have other : name ∉ ["decoder"] := by simpa using notDecoder
    refine (choiceReads_otherMember limit _ _ _).congr fun ⟨_, _⟩ => ?_
    simp only [Step, slotStep_ne notDecoder, otherStep_other other, mk.injEq]

theorem folds_iff (members : Members) (after : OpcodeDraft) :
    Folds Step {} members after ↔ Slot "decoder" IsText members after.decoder ∧
      after.fields = (Value.mergedMembers (members.others ["decoder"])).merged := by
  rw [folds_two Step _ _ decoder fields mk (fun _ _ => rfl) (fun _ => rfl) fun _ _ _ => Iff.rfl,
    folds_slotStep_iff, folds_otherStep_iff]

/-- What the members that were read make of an opcode. -/
def Finishes (draft : OpcodeDraft) (entry : OpcodeEntry) : Prop :=
  draft.decoder = some entry.decoder ∧ entry.fields = draft.fields

end OpcodeDraft

theorem answer_opcodeEntry_iff (depth : Nat) (text : List Char) (entry : OpcodeEntry)
    (left : List Char) :
    (opcodeEntry depth).answer text = some (entry, left) ↔
      ∃ draft, (objectOf depth "struct OpcodeSpec" {} OpcodeDraft.choose).answer text =
        some (draft, left) ∧ draft.Finishes entry := by
  refine (seen_finish_iff _ (fun draft : OpcodeDraft => required "decoder" draft.decoder)
    (fun draft decoder => OpcodeEntry.mk decoder draft.fields) entry left).trans
    (exists_congr fun draft => and_congr_right fun _ => ?_)
  obtain ⟨entryDecoder, entryFields⟩ := entry
  simp only [required_eq_ok_iff, OpcodeDraft.Finishes, OpcodeEntry.mk.injEq]
  grind

theorem reads_opcodeObject {members : Members} {depth : Nat}
    (limit : (Value.object members).depth ≤ depth) :
    Reads (opcodeEntry depth) (.object members) (OpcodeMembers members) := by
  obtain ⟨depth, rfl, inside⟩ := Value.exists_members_limit limit
  have object : Reads (objectOf (depth + 1) "struct OpcodeSpec" {} OpcodeDraft.choose)
      (.object members) (Folds OpcodeDraft.Step {} members) :=
    reads_objectOf _ _ (fun m member draft => draft.choose_reads m.1 (inside m member)) _ _
  refine (object.finish (answer_opcodeEntry_iff _)).congr fun entry => ?_
  simp only [OpcodeDraft.folds_iff]
  constructor
  · rintro ⟨draft, ⟨named, gathered⟩, decoder, fields⟩
    exact ⟨decoder ▸ named, fields.trans gathered⟩
  · rintro ⟨named, gathered⟩
    exact ⟨⟨some entry.decoder, entry.fields⟩, ⟨named, gathered⟩, rfl, rfl⟩

theorem reads_opcodeEntry {v : Value} {depth : Nat} (limit : v.depth ≤ depth) :
    Reads (opcodeEntry depth) v (IsRecord OpcodeMembers v) :=
  reads_isRecord limit reads_opcodeObject fun other =>
    ((reads_objectOf_other other _ _ _ _).finish (answer_opcodeEntry_iff depth)).congr
      fun _ => ⟨fun ⟨_, never, _⟩ => never, False.elim⟩

end DecoderTables
