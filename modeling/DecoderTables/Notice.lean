import DecoderTables.Tables

/-!
Notices: what a build and the handling of files tell about their progress.
-/

namespace DecoderTables

inductive Notice where
  | instructionCount (count : Nat)
  | decoderAccepted (name structName : String) (predicates : Nat)
  | decoderCount (count : Nat)
  | splitterCount (count : Nat)
  | opcodeResolved (bin callback : String)
  | opcodeCounts (decoders splitters invalid : Nat)
  | stale (path : String)
  | generated (path : String)

inductive Level where
  | trace
  | debug
  | info

def Level.name : Level → String
  | .trace => "TRACE"
  | .debug => "DEBUG"
  | .info => "INFO"

namespace Notice

def level : Notice → Level
  | .decoderAccepted .. | .opcodeResolved .. => .trace
  | .generated _ => .info
  | _ => .debug

def text : Notice → String
  | .instructionCount count => s!"instructions: {count}"
  | .decoderAccepted name structName predicates =>
      s!"decoder {name} -> {structName}, {predicates} predicates"
  | .decoderCount count => s!"decoders: {count}"
  | .splitterCount count => s!"splitters: {count}"
  | .opcodeResolved bin callback => s!"opcode {bin} -> {callback}"
  | .opcodeCounts decoders splitters invalid =>
      s!"opcodes: {decoders} decoders, {splitters} splitters, {invalid} invalid"
  | .stale path => s!"stale: {path}"
  | .generated path => s!"generated {path}"

def line (notice : Notice) : String :=
  notice.level.name ++ " " ++ notice.text

/-- The notices of an intake: one for each accepted item, and more if nothing was refused. -/
def ofIntake {α : Type} (each : α → List Notice) (intake : Intake α)
    (more : List α → List Notice) : List Notice :=
  intake.accepted.flatMap each ++
    match intake.result with
    | .ok items => more items
    | .error _ => []

def ofDecoder (decoder : Decoder) : List Notice :=
  [.decoderAccepted decoder.name decoder.structName decoder.predicates.length]

/-- A value without an opcode is not mentioned. -/
def ofEntry (entry : SelectorEntry) : List Notice :=
  if entry.kind = .invalid then [] else [.opcodeResolved entry.bin entry.callback]

def ofOpcodes (opcodes : Section OpcodeEntry) (decoders : List Decoder)
    (splitters : List Splitter) : List Notice :=
  match Splitter.checkApart decoders splitters, Selector.checkKeys [] (opcodes.map (·.1)) with
  | .ok (), .ok () =>
      ofIntake ofEntry (Selector.intake opcodes decoders splitters) fun entries =>
        [.opcodeCounts (EntryKind.decoder.countIn entries) (EntryKind.splitter.countIn entries)
          (EntryKind.invalid.countIn entries)]
  | _, _ => []

/-- The notices of a build in order, up to its end or its fault. -/
def ofBuild (document : Document) : List Notice :=
  ofIntake (fun _ => []) (Instruction.intake document.instructions) fun instructions =>
    .instructionCount instructions.length ::
      ofIntake ofDecoder (Decoder.intake instructions document.decoders) fun decoders =>
        .decoderCount decoders.length ::
          ofIntake (fun _ => []) (Splitter.intake document.splitters) fun splitters =>
            .splitterCount splitters.length :: ofOpcodes document.opcodes decoders splitters

end Notice

end DecoderTables
