import DecoderTables.Header.Decoders
import DecoderTables.Header.Instructions
import DecoderTables.Proofs.Results
import DecoderTables.Tables

/-!
Opaque data stays out of the headers. What the headers may show of a document is its visible part;
every stage of the build makes the visible part of its result from the visible part of its input,
and the headers show the visible part of the tables.
-/

namespace DecoderTables
open Json

/-! The visible part. -/

/-- The member of the name, without all others. -/
def Json.Members.only (members : Members) (name : String) : Members :=
  match members.get? name with
  | some value => [(name, value)]
  | none => []

def Instruction.visible (instruction : Instruction) : Instruction :=
  { instruction with fields := instruction.fields.only "fields" }

def Decoder.visible (decoder : Decoder) : Decoder :=
  { decoder with fields := decoder.fields.only "body" }

def Splitter.visible (splitter : Splitter) : Splitter :=
  { splitter with flags := [], fields := splitter.fields.only "body" }

def SelectorEntry.visible (entry : SelectorEntry) : SelectorEntry :=
  { entry with flags := if entry.kind = .splitter then [] else entry.flags, fields := [] }

def Tables.visible (tables : Tables) : Tables where
  opcodes := tables.opcodes.map SelectorEntry.visible
  decoders := tables.decoders.map Decoder.visible
  splitters := tables.splitters.map Splitter.visible
  instructions := tables.instructions.map Instruction.visible

def DecoderEntry.visible (entry : DecoderEntry) : DecoderEntry :=
  { entry with fields := entry.fields.only "body" }

def SplitterEntry.visible (entry : SplitterEntry) : SplitterEntry :=
  { entry with flags := [], fields := entry.fields.only "body" }

def OpcodeEntry.visible (entry : OpcodeEntry) : OpcodeEntry :=
  { entry with fields := [] }

/-- The document without the extra fields of opcodes, the flags of splitters, the fields of decoders
and splitters other than `body`, and the fields of instructions other than `fields`. -/
def Document.visible (document : Document) : Document where
  instructions := document.instructions.map (Prod.map id fun fields => fields.only "fields")
  decoders := document.decoders.map (Prod.map id DecoderEntry.visible)
  splitters := document.splitters.map (Prod.map id SplitterEntry.visible)
  opcodes := document.opcodes.map (Prod.map id OpcodeEntry.visible)

theorem Json.Members.get?_only (members : Members) (name : String) :
    (members.only name).get? name = members.get? name := by
  unfold only
  cases found : members.get? name with
  | some value => simp [get?]
  | none => rfl

/-! The stages of the build. -/

def Intake.map {α β : Type} (change : α → β) (intake : Intake α) : Intake β :=
  ⟨intake.accepted.map change, intake.refused⟩

theorem Intake.result_map {α β : Type} (change : α → β) (intake : Intake α) :
    (intake.map change).result = intake.result.map (List.map change) := by
  obtain ⟨accepted, refused⟩ := intake
  cases refused <;> rfl

/-- Items and entries may be changed on both sides of each step, and so of a whole intake. -/
theorem takeIn_map {α β ε δ : Type} {accept : List α → ε → Except BuildError α}
    {judge : List β → δ → Except BuildError β} (change : α → β) (view : ε → δ)
    (step : ∀ accepted entry,
      judge (accepted.map change) (view entry) = (accept accepted entry).map change)
    (accepted : List α) (entries : List ε) :
    takeIn judge (accepted.map change) (entries.map view) =
      (takeIn accept accepted entries).map change := by
  induction entries generalizing accepted with
  | nil => rfl
  | cons entry entries ih =>
    rw [List.map_cons, takeIn, takeIn, step]
    cases accept accepted entry with
    | error fault => rfl
    | ok item =>
      have longer := ih (accepted ++ [item])
      rw [List.map_append] at longer
      exact longer

namespace Instruction

theorem find?_visible (instructions : List Instruction) (name : String) :
    find? (instructions.map visible) name = (find? instructions name).map visible := by
  rw [find?, List.find?_map]
  rfl

theorem taken_visible (instructions : List Instruction) :
    taken (instructions.map visible) = taken instructions := by
  rw [taken, List.flatMap_map]
  rfl

theorem accept_visible (accepted : List Instruction) (entry : String × Members) :
    accept (accepted.map visible) (Prod.map id (fun fields => fields.only "fields") entry) =
      (accept accepted entry).map visible := by
  obtain ⟨name, fields⟩ := entry
  have same : (ofEntry name (fields.only "fields")).identifiers =
      (ofEntry name fields).identifiers := rfl
  dsimp only [accept, Prod.map, id]
  rw [find?_visible, Option.isSome_map, taken_visible, same]
  split
  · rfl
  · cases (ofEntry name fields).identifiers.find? (· ∈ taken accepted) <;> rfl

theorem intake_visible (entries : Section Members) :
    intake (entries.map (Prod.map id fun fields => fields.only "fields")) =
      (intake entries).map visible :=
  takeIn_map visible _ accept_visible [] entries

end Instruction

namespace Decoder

theorem find?_visible (decoders : List Decoder) (name : String) :
    find? (decoders.map visible) name = (find? decoders name).map visible := by
  rw [find?, List.find?_map]
  rfl

theorem callbacks_visible (decoders : List Decoder) :
    (decoders.map visible).map (·.callback) = decoders.map (·.callback) := by
  rw [List.map_map]
  rfl

theorem taken_visible (decoders : List Decoder) : taken (decoders.map visible) = taken decoders :=
  congrArg (Identifier.invalidDecoder :: ·) (callbacks_visible decoders)

theorem ofEntry_visible (instructions : List Instruction) (name : String) (entry : DecoderEntry) :
    ofEntry (instructions.map Instruction.visible) name entry.visible =
      (ofEntry instructions name entry).map visible := by
  have wanted : entry.visible.instruction = entry.instruction := rfl
  unfold ofEntry
  rw [wanted, Instruction.find?_visible]
  cases Instruction.find? instructions entry.instruction with
  | none => rfl
  | some instruction =>
    change (patternOf name entry.pattern >>= _) = _
    dsimp only
    cases patternOf name entry.pattern <;> rfl

theorem accept_visible (instructions : List Instruction) (accepted : List Decoder)
    (entry : String × DecoderEntry) :
    accept (instructions.map Instruction.visible) (accepted.map visible)
        (Prod.map id DecoderEntry.visible entry) =
      (accept instructions accepted entry).map visible := by
  obtain ⟨name, entry⟩ := entry
  dsimp only [accept, Prod.map, id]
  rw [find?_visible, Option.isSome_map, ofEntry_visible, taken_visible]
  split
  · rfl
  · cases ofEntry instructions name entry with
    | error fault => rfl
    | ok decoder =>
      change (if decoder.callback ∈ taken accepted then _ else _) =
        Except.map visible (if _ then _ else _)
      by_cases clash : decoder.callback ∈ taken accepted
      · rw [if_pos clash, if_pos clash]
        rfl
      · rw [if_neg clash, if_neg clash]
        rfl

theorem intake_visible (instructions : List Instruction) (entries : Section DecoderEntry) :
    intake (instructions.map Instruction.visible) (entries.map (Prod.map id DecoderEntry.visible)) =
      (intake instructions entries).map visible :=
  takeIn_map visible _ (accept_visible instructions) [] entries

end Decoder

namespace Splitter

theorem find?_visible (splitters : List Splitter) (name : String) :
    find? (splitters.map visible) name = (find? splitters name).map visible := by
  rw [find?, List.find?_map]
  rfl

theorem accept_visible (accepted : List Splitter) (entry : String × SplitterEntry) :
    accept (accepted.map visible) (Prod.map id SplitterEntry.visible entry) =
      (accept accepted entry).map visible := by
  obtain ⟨name, entry⟩ := entry
  dsimp only [accept, Prod.map, id]
  rw [find?_visible, Option.isSome_map]
  split <;> rfl

theorem intake_visible (entries : Section SplitterEntry) :
    intake (entries.map (Prod.map id SplitterEntry.visible)) = (intake entries).map visible :=
  takeIn_map visible _ accept_visible [] entries

theorem checkApart_visible (decoders : List Decoder) (splitters : List Splitter) :
    checkApart (decoders.map Decoder.visible) (splitters.map visible) =
      checkApart decoders splitters := by
  induction splitters with
  | nil => rfl
  | cons splitter splitters ih =>
    have name : splitter.visible.name = splitter.name := rfl
    have callback : splitter.visible.callback = splitter.callback := rfl
    rw [List.map_cons, checkApart, checkApart, ih, name, callback, Decoder.find?_visible,
      Option.isSome_map, Decoder.callbacks_visible]

end Splitter

namespace Selector

theorem lookup_visible (opcodes : Section OpcodeEntry) (key : String) :
    (opcodes.map (Prod.map id OpcodeEntry.visible)).lookup key =
      (opcodes.lookup key).map OpcodeEntry.visible := by
  induction opcodes with
  | nil => rfl
  | cons opcode opcodes ih =>
    obtain ⟨name, entry⟩ := opcode
    rw [List.map_cons]
    dsimp only [Prod.map, id]
    rw [List.lookup_cons, List.lookup_cons, ih]
    cases key == name <;> rfl

theorem resolve_visible (opcodes : Section OpcodeEntry) (decoders : List Decoder)
    (splitters : List Splitter) (index : Nat) :
    resolve (opcodes.map (Prod.map id OpcodeEntry.visible)) (decoders.map Decoder.visible)
        (splitters.map Splitter.visible) index =
      (resolve opcodes decoders splitters index).map SelectorEntry.visible := by
  unfold resolve
  rw [← List.map_reverse, lookup_visible]
  cases opcodes.reverse.lookup (binary index) with
  | none => rfl
  | some opcode =>
    have wanted : opcode.visible.decoder = opcode.decoder := rfl
    dsimp only [Option.map_some]
    rw [wanted, Decoder.find?_visible, Splitter.find?_visible]
    cases Decoder.find? decoders opcode.decoder <;>
      cases Splitter.find? splitters opcode.decoder <;> rfl

variable (opcodes : Section OpcodeEntry) (decoders : List Decoder) (splitters : List Splitter)

theorem intake_visible :
    intake (opcodes.map (Prod.map id OpcodeEntry.visible)) (decoders.map Decoder.visible)
        (splitters.map Splitter.visible) =
      (intake opcodes decoders splitters).map SelectorEntry.visible := by
  have taken : takeIn (fun _ index => resolve (opcodes.map (Prod.map id OpcodeEntry.visible))
        (decoders.map Decoder.visible) (splitters.map Splitter.visible) index) []
          ((List.range count).map id) =
      (takeIn (fun _ index => resolve opcodes decoders splitters index) []
        (List.range count)).map SelectorEntry.visible :=
    takeIn_map SelectorEntry.visible id
      (fun _ index => resolve_visible opcodes decoders splitters index) [] (List.range count)
  rw [List.map_id] at taken
  exact taken

theorem table_visible :
    table (opcodes.map (Prod.map id OpcodeEntry.visible)) (decoders.map Decoder.visible)
        (splitters.map Splitter.visible) =
      (table opcodes decoders splitters).map (List.map SelectorEntry.visible) := by
  have keys : (opcodes.map (Prod.map id OpcodeEntry.visible)).map (·.1) = opcodes.map (·.1) := by
    rw [List.map_map]
    rfl
  unfold table
  rw [keys, intake_visible, Intake.result_map]
  cases checkKeys [] (opcodes.map (·.1)) <;> rfl

end Selector

/-- The visible part of a document builds to the visible part of the tables, or ends with the same
fault. -/
theorem Tables.build_visible (document : Document) :
    build document.visible = (build document).map visible := by
  unfold build
  dsimp only [Document.visible]
  rw [Instruction.intake_visible, Intake.result_map]
  cases (Instruction.intake document.instructions).result with
  | error fault => rfl
  | ok instructions =>
    change ((Decoder.intake (instructions.map Instruction.visible) _).result >>= _) =
      Except.map visible ((Decoder.intake instructions _).result >>= _)
    rw [Decoder.intake_visible, Intake.result_map]
    cases (Decoder.intake instructions document.decoders).result with
    | error fault => rfl
    | ok decoders =>
      change ((Splitter.intake _).result >>= _) =
        Except.map visible ((Splitter.intake _).result >>= _)
      rw [Splitter.intake_visible, Intake.result_map]
      cases (Splitter.intake document.splitters).result with
      | error fault => rfl
      | ok splitters =>
        change (Splitter.checkApart (decoders.map Decoder.visible)
            (splitters.map Splitter.visible) >>= _) =
          Except.map visible (Splitter.checkApart decoders splitters >>= _)
        rw [Splitter.checkApart_visible]
        cases Splitter.checkApart decoders splitters with
        | error fault => rfl
        | ok =>
          change (Selector.table _ (decoders.map Decoder.visible)
              (splitters.map Splitter.visible) >>= _) =
            Except.map visible (Selector.table _ decoders splitters >>= _)
          rw [Selector.table_visible]
          cases Selector.table document.opcodes decoders splitters <;> rfl

end DecoderTables
