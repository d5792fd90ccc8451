import DecoderTables.Json.Printer
import DecoderTables.Selector

/-!
All that the headers are made from, built from a document. The stages follow one another:
instructions, decoders, splitters, names that decoders and splitters share, keys of opcodes, and
the selector values in ascending order. The first fault ends the build.
-/

namespace DecoderTables
open Json

structure Tables where
  opcodes : List SelectorEntry
  decoders : List Decoder
  splitters : List Splitter
  instructions : List Instruction

namespace Tables

def build (document : Document) : Except BuildError Tables := do
  let instructions ← (Instruction.intake document.instructions).result
  let decoders ← (Decoder.intake instructions document.decoders).result
  let splitters ← (Splitter.intake document.splitters).result
  Splitter.checkApart decoders splitters
  let opcodes ← Selector.table document.opcodes decoders splitters
  return { opcodes, decoders, splitters, instructions }

def strings (texts : List String) : Value :=
  .array (texts.map .string)

def entryJson (entry : SelectorEntry) : Value :=
  .object [("index", .natural entry.index.toNat), ("bin", .string entry.bin),
    ("kind", .string entry.kind.name), ("name_decoder", .string entry.callback),
    ("flags", strings entry.flags), ("fields", .object entry.fields)]

def decoderJson (decoder : Decoder) : Value :=
  .object ([("name", .string decoder.name), ("instruction", .string decoder.instruction),
    ("callback_name", .string decoder.callback), ("struct_name", .string decoder.structName),
    ("enum_tag", .string decoder.enumTag), ("flags", strings decoder.flags)] ++
    (match decoder.pattern with
      | some pattern => [("pattern", pattern.toJson)]
      | none => []) ++
    [("predicates", .array (decoder.predicates.map (·.toJson))),
      ("fields", .object decoder.fields)])

def splitterJson (splitter : Splitter) : Value :=
  .object [("name", .string splitter.name), ("callback_name", .string splitter.callback),
    ("flags", strings splitter.flags), ("fields", .object splitter.fields)]

def instructionJson (instruction : Instruction) : Value :=
  .object [("name", .string instruction.name), ("struct_name", .string instruction.structName),
    ("enum_tag", .string instruction.enumTag), ("fields", .object instruction.fields)]

def toJson (tables : Tables) : Value :=
  .object [("opcodes", .array (tables.opcodes.map entryJson)),
    ("decoders", .array (tables.decoders.map decoderJson)),
    ("splitters", .array (tables.splitters.map splitterJson)),
    ("instructions", .array (tables.instructions.map instructionJson))]

def json (tables : Tables) : String :=
  tables.toJson.prettyText

/-- Equality of the data. The order of the members of extra fields does not count. -/
def equals (a b : Tables) : Bool :=
  a.toJson.equals b.toJson

end Tables

end DecoderTables
