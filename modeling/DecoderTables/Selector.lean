import DecoderTables.Catalog.Splitter

/-!
The selector table. The selector is a field of five bits; each of its values is resolved to a
decoder, a splitter or the callback for invalid instructions.
-/

namespace DecoderTables
open Json

namespace Selector

def width : Nat := 5

def count : Nat := 1 <<< width

/-- A value in base two with at least five digits. -/
def binary (index : Nat) : String :=
  String.ofList ((Nat.toDigits 2 index).leftpad width '0')

def isKey (key : String) : Bool :=
  key.toList.length = width && key.toList.all fun c => c = '0' || c = '1'

end Selector

inductive EntryKind where
  | decoder
  | splitter
  | invalid
deriving DecidableEq

def EntryKind.name : EntryKind → String
  | .decoder => "decoder"
  | .splitter => "splitter"
  | .invalid => "invalid"

structure SelectorEntry where
  index : UInt8
  bin : String
  kind : EntryKind
  callback : String
  flags : List String
  fields : Members

namespace Selector

def invalidEntry (index : Nat) : SelectorEntry :=
  ⟨.ofNat index, binary index, .invalid, Identifier.invalidDecoder, [], []⟩

/-- The entry of one selector value. Of several opcodes with its key the last one counts. -/
def resolve (opcodes : Section OpcodeEntry) (decoders : List Decoder)
    (splitters : List Splitter) (index : Nat) : Except BuildError SelectorEntry :=
  match opcodes.reverse.lookup (binary index) with
  | none => .ok (invalidEntry index)
  | some opcode =>
      match Decoder.find? decoders opcode.decoder, Splitter.find? splitters opcode.decoder with
      | some _, some _ => .error (.ambiguousCallback opcode.decoder)
      | some decoder, none =>
          .ok ⟨.ofNat index, binary index, .decoder, decoder.callback, decoder.flags,
            opcode.fields⟩
      | none, some splitter =>
          .ok ⟨.ofNat index, binary index, .splitter, splitter.callback, splitter.flags,
            opcode.fields⟩
      | none, none => .error (.unknownCallback (binary index) opcode.decoder)

/-- Keys have five binary digits and differ from those before them. -/
def checkKeys (before : List String) : List String → Except BuildError Unit
  | [] => .ok ()
  | key :: keys =>
      if !isKey key then .error (.invalidOpcodeKey key)
      else if key ∈ before then .error (.repeatedOpcode key)
      else checkKeys (key :: before) keys

/-- The entries in ascending order, up to a value that cannot be resolved. -/
def intake (opcodes : Section OpcodeEntry) (decoders : List Decoder)
    (splitters : List Splitter) : Intake SelectorEntry :=
  takeIn (fun _ index => resolve opcodes decoders splitters index) [] (List.range count)

def table (opcodes : Section OpcodeEntry) (decoders : List Decoder)
    (splitters : List Splitter) : Except BuildError (List SelectorEntry) := do
  checkKeys [] (opcodes.map (·.1))
  (intake opcodes decoders splitters).result

end Selector

/-- How many selector values have a kind. -/
def EntryKind.countIn (kind : EntryKind) (entries : List SelectorEntry) : Nat :=
  entries.countP (·.kind = kind)

end DecoderTables
