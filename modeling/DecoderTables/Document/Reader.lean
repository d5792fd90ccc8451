import DecoderTables.Document.Basic
import DecoderTables.Json.Reader.Ignored

/-!
Reading a document. Known members of a record occur at most once; the members that a decoder, a
splitter or an opcode does not know become its fields, and those that the document or a pattern
does not know are ignored.
-/

namespace DecoderTables
open Json

def Json.Reader.map {α β : Type} (f : α → β) (read : Reader α) : Reader β := fun text => do
  let (a, rest) ← read text
  return (f a, rest)

/-- Reads a known member, unless it was there before. -/
def once {α σ : Type} (name : String) (before : Option α) (read : Reader α)
    (set : Option α → σ) : Except ReadError (Reader σ) :=
  match before with
  | some _ => .error (.repeatedMember name)
  | none => .ok (read.map fun a => set (some a))

def required {α : Type} (name : String) (found : Option α) : Except ReadError α :=
  match found with
  | some a => .ok a
  | none => .error (.missingMember name)

/-- The word `null`, or a value. -/
def optional {α : Type} (read : Reader α) : Reader (Option α) :=
  token fun
    | [] => .error (.endOfText .value)
    | c :: text =>
        if c = 'n' then do
          let rest ← word ['u', 'l', 'l'] text
          return (none, rest.ofCons c)
        else read.map some (c :: text)

/-- The closing bracket of a list that has no more items. -/
def listEnd (text : List Char) : Except ReadError (Rest text) :=
  match found : skipSpace text with
  | [] => .error (.endOfText .list)
  | c :: more =>
      if c = ']' then
        .ok ⟨more, length_lt_of_skipSpace found⟩
      else if c = ',' && (skipSpace more).head? = some ']' then .error .trailingComma
      else .error .trailingCharacters

/-- A list with one reader for each place; it may end before any of them. -/
def places {σ : Type} (readers : List (σ → Reader σ)) (first : Bool) (state : σ)
    (text : List Char) : Except ReadError (σ × Rest text) :=
  match readers with
  | [] => do
      let rest ← listEnd text
      return (state, rest)
  | place :: readers => do
      match ← Bracket.square.next first text with
      | .closed rest => return (state, rest)
      | .item tail =>
          let (state, rest) ← place state tail.chars
          let (state, last) ← places readers false state rest.chars
          return (state, (rest.trans last).within tail.noLonger)

/-- A record as an object or as a list of its members. -/
def recordOf {σ : Type} (depth : Nat) (expected : String) (start : σ)
    (choose : Nat → σ → String → Except ReadError (Reader σ))
    (readers : Nat → List (σ → Reader σ)) : Reader σ :=
  token fun text =>
    if text.head? = some '[' then
      opened '[' expected (deeper depth fun depth => places (readers depth) true start) text
    else objectOf depth expected start choose text

structure PatternDraft where
  lo : Option String := none
  hi : Option (Option String) := none

def PatternDraft.choose (draft : PatternDraft) (name : String) :
    Except ReadError (Reader PatternDraft) :=
  match name with
  | "lo" => once name draft.lo string fun lo => { draft with lo }
  | "hi" => once name draft.hi (optional string) fun hi => { draft with hi }
  | _ => .ok (ignored.map fun _ => draft)

def PatternDraft.places : List (PatternDraft → Reader PatternDraft) :=
  [fun draft => string.map fun lo => { draft with lo := some lo },
    fun draft => (optional string).map fun hi => { draft with hi := some hi }]

/-- An empty list has a wrong length, an object without its first member misses it. -/
def PatternDraft.finish (asList : Bool) (draft : PatternDraft) : Except ReadError PatternEntry :=
  match draft.lo with
  | some lo => .ok ⟨lo, draft.hi.getD none⟩
  | none =>
      .error (if asList then .wrongLength 0 "struct PatternSpec with 2 elements"
        else .missingMember "lo")

def patternEntry (depth : Nat) : Reader PatternEntry := fun text => do
  let (draft, rest) ← recordOf depth "struct PatternSpec" {}
    (fun _ => PatternDraft.choose) (fun _ => PatternDraft.places) text
  let entry ← draft.finish ((skipSpace text).head? = some '[')
  return (entry, rest)

/-- Appends a member that the record does not know. -/
def otherMember {σ : Type} (depth : Nat) (fields : Members) (name : String)
    (set : Members → σ) : Except ReadError (Reader σ) :=
  .ok ((value depth).map fun v => set (fields.put name v))

structure DecoderDraft where
  instruction : Option String := none
  flags : Option (List String) := none
  pattern : Option (Option PatternEntry) := none
  fields : Members := []

def DecoderDraft.choose (depth : Nat) (draft : DecoderDraft) (name : String) :
    Except ReadError (Reader DecoderDraft) :=
  match name with
  | "instruction" =>
      once name draft.instruction string fun instruction => { draft with instruction }
  | "flags" =>
      once name draft.flags (listOf depth fun _ => string) fun flags => { draft with flags }
  | "pattern" =>
      once name draft.pattern (optional (patternEntry depth)) fun pattern =>
        { draft with pattern }
  | _ => otherMember depth draft.fields name fun fields => { draft with fields }

def decoderEntry (depth : Nat) : Reader DecoderEntry := fun text => do
  let (draft, rest) ← objectOf depth "struct DecoderSpec" {} DecoderDraft.choose text
  let instruction ← required "instruction" draft.instruction
  return (⟨instruction, draft.flags.getD [], draft.pattern.getD none, draft.fields⟩, rest)

structure SplitterDraft where
  flags : Option (List String) := none
  fields : Members := []

def SplitterDraft.choose (depth : Nat) (draft : SplitterDraft) (name : String) :
    Except ReadError (Reader SplitterDraft) :=
  match name with
  | "flags" =>
      once name draft.flags (listOf depth fun _ => string) fun flags => { draft with flags }
  | _ => otherMember depth draft.fields name fun fields => { draft with fields }

def splitterEntry (depth : Nat) : Reader SplitterEntry := fun text => do
  let (draft, rest) ← objectOf depth "struct SplitterSpec" {} SplitterDraft.choose text
  return (⟨draft.flags.getD [], draft.fields⟩, rest)

structure OpcodeDraft where
  decoder : Option String := none
  fields : Members := []

def OpcodeDraft.choose (depth : Nat) (draft : OpcodeDraft) (name : String) :
    Except ReadError (Reader OpcodeDraft) :=
  match name with
  | "decoder" => once name draft.decoder string fun decoder => { draft with decoder }
  | _ => otherMember depth draft.fields name fun fields => { draft with fields }

def opcodeEntry (depth : Nat) : Reader OpcodeEntry := fun text => do
  let (draft, rest) ← objectOf depth "struct OpcodeSpec" {} OpcodeDraft.choose text
  let decoder ← required "decoder" draft.decoder
  return (⟨decoder, draft.fields⟩, rest)

/-- The members of an instruction, of any kind. -/
def instructionEntry (depth : Nat) : Reader Members :=
  opened '\x7b' "a map" (deeper depth fun depth => members (value depth))

/-- Named entries in order, also those of a name that was there before. -/
def sectionOf {α : Type} (entry : Nat → Reader α) (depth : Nat) : Reader (Section α) :=
  (objectOf depth "an object of named entries" ([] : Section α)
    fun depth entries name => .ok ((entry depth).map fun a => (name, a) :: entries)).map
    List.reverse

structure DocumentDraft where
  instructions : Option (Section Members) := none
  decoders : Option (Section DecoderEntry) := none
  splitters : Option (Section SplitterEntry) := none
  opcodes : Option (Section OpcodeEntry) := none

namespace DocumentDraft

def choose (depth : Nat) (draft : DocumentDraft) (name : String) :
    Except ReadError (Reader DocumentDraft) :=
  match name with
  | "instructions" =>
      once name draft.instructions (sectionOf instructionEntry depth) fun instructions =>
        { draft with instructions }
  | "decoders" =>
      once name draft.decoders (sectionOf decoderEntry depth) fun decoders =>
        { draft with decoders }
  | "splitters" =>
      once name draft.splitters (sectionOf splitterEntry depth) fun splitters =>
        { draft with splitters }
  | "opcodes" =>
      once name draft.opcodes (sectionOf opcodeEntry depth) fun opcodes => { draft with opcodes }
  | _ => .ok (ignored.map fun _ => draft)

def places (depth : Nat) : List (DocumentDraft → Reader DocumentDraft) :=
  [fun draft => (sectionOf instructionEntry depth).map fun found =>
      { draft with instructions := some found },
    fun draft => (sectionOf decoderEntry depth).map fun found =>
      { draft with decoders := some found },
    fun draft => (sectionOf splitterEntry depth).map fun found =>
      { draft with splitters := some found },
    fun draft => (sectionOf opcodeEntry depth).map fun found =>
      { draft with opcodes := some found }]

def finish (draft : DocumentDraft) : Document :=
  ⟨draft.instructions.getD [], draft.decoders.getD [], draft.splitters.getD [],
    draft.opcodes.getD []⟩

end DocumentDraft

def document : Reader Document :=
  (recordOf depthLimit "struct SpecDocument" {} DocumentDraft.choose DocumentDraft.places).map
    DocumentDraft.finish

def Document.read (text : String) : Except ReadError Document :=
  readAll document text.toList

end DecoderTables
