import DecoderTables.Catalog.Indexed
import DecoderTables.Tables

/-!
Tables that keep their catalogs with an index, and look names up by it.
-/

namespace DecoderTables
open Json

namespace Splitter

/-- A splitter shares neither its name nor its callback with a decoder of a catalog. -/
def checkApartFrom (decoders : Catalog Decoder) : List Splitter → Except BuildError Unit
  | [] => .ok ()
  | splitter :: splitters =>
      if decoders.contains splitter.name then .error (.ambiguousCallback splitter.name)
      else if splitter.callback ∈ decoders.items.map (·.callback) then
        .error (.repeatedIdentifier splitter.name splitter.callback)
      else checkApartFrom decoders splitters

end Splitter

namespace Selector

/-- The entry of a selector value with an opcode, given what was found under the name in it. -/
def entryOf (index : Nat) (opcode : OpcodeEntry) :
    Option Decoder → Option Splitter → Except BuildError SelectorEntry
  | some _, some _ => .error (.ambiguousCallback opcode.decoder)
  | some decoder, none =>
      .ok ⟨.ofNat index, binary index, .decoder, decoder.callback, decoder.flags, opcode.fields⟩
  | none, some splitter =>
      .ok ⟨.ofNat index, binary index, .splitter, splitter.callback, splitter.flags,
        opcode.fields⟩
  | none, none => .error (.unknownCallback (binary index) opcode.decoder)

def resolveIn (opcodes : Section OpcodeEntry) (decoders : Catalog Decoder)
    (splitters : Catalog Splitter) (index : Nat) : Except Stop SelectorEntry :=
  match opcodes.reverse.lookup (binary index) with
  | none => .ok (invalidEntry index)
  | some opcode => do
      let decoder ← decoders.get opcode.decoder
      let splitter ← splitters.get opcode.decoder
      (entryOf index opcode decoder splitter).mapError .refused

def tableIn (opcodes : Section OpcodeEntry) (decoders : Catalog Decoder)
    (splitters : Catalog Splitter) : Except Stop (List SelectorEntry) := do
  (checkKeys [] (opcodes.map (·.1))).mapError .refused
  (List.range count).mapM (resolveIn opcodes decoders splitters)

end Selector

def SelectorEntry.equals (entry other : SelectorEntry) : Bool :=
  entry.index = other.index && entry.bin = other.bin && entry.kind = other.kind &&
    entry.callback = other.callback && entry.flags = other.flags &&
    Members.equals entry.fields other.fields

structure IndexedTables where
  opcodes : List SelectorEntry
  decoders : Catalog Decoder
  splitters : Catalog Splitter
  instructions : Catalog Instruction

namespace IndexedTables

def build (document : Document) : Except Stop IndexedTables := do
  let instructions ← Instruction.filler.fill document.instructions
  let decoders ← (Decoder.filler instructions).fill document.decoders
  let splitters ← Splitter.filler.fill document.splitters
  (Splitter.checkApartFrom decoders splitters.items).mapError .refused
  let opcodes ← Selector.tableIn document.opcodes decoders splitters
  return { opcodes, decoders, splitters, instructions }

/-- The tables without the indices. -/
def tables (data : IndexedTables) : Tables :=
  ⟨data.opcodes, data.decoders.items, data.splitters.items, data.instructions.items⟩

/-- Equality of the data, indices included. -/
def equals (data other : IndexedTables) : Bool :=
  data.opcodes.isEqv other.opcodes SelectorEntry.equals &&
    data.decoders.equals Decoder.equals other.decoders &&
    data.splitters.equals Splitter.equals other.splitters &&
    data.instructions.equals Instruction.equals other.instructions

end IndexedTables

end DecoderTables
