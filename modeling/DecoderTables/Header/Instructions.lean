import DecoderTables.Header.Layout
import DecoderTables.Tables

/-!
The instruction header: an enumeration of the instructions, a struct for each of them, and the
union of all.
-/

namespace DecoderTables.Header

def instructionIncludes : List String := [
  "libmicroemu/internal/decoder/instr_flags.h",
  "libmicroemu/internal/logic/imm_shift_results.h",
  "libmicroemu/internal/logic/thumb_immediate_result.h",
  "libmicroemu/types.h"]

def enumLines (instructions : List Instruction) : List String :=
  ["enum class InstrId : u8 \x7b"] ++
  instructions.map (fun instruction => line 1 (instruction.enumTag ++ ",")) ++
  [line 1 Identifier.invalidTag, "\x7d;"]

def structLines (instruction : Instruction) : List String :=
  ["struct " ++ instruction.structName ++ " \x7b",
    line 1 "InstrId id;          // base_type: u8",
    line 1 "InstrFlagsSet flags; // base_type: u8"] ++
  (dataMembers instruction).map (fun (name, type) => line 1 (type ++ " " ++ name ++ ";")) ++
  ["\x7d;"]

def unionLines (instructions : List Instruction) : List String :=
  ["union Instr \x7b", line 1 "InstrId id;"] ++
  instructions.map (fun instruction =>
    line 1 (instruction.structName ++ " " ++ instruction.name ++ ";")) ++
  ["", line 1 ("Instr() : id(InstrId::" ++ Identifier.invalidTag ++ ") \x7b\x7d"),
    line 1 "Instr(const InstrId &arg) : id(arg) \x7b\x7d"] ++
  instructions.map (fun instruction =>
    line 1 ("Instr(const " ++ instruction.structName ++ " &arg) : " ++ instruction.name ++
      "(arg) \x7b\x7d")) ++
  ["\x7d;"]

def instructionLines (tables : Tables) (options : HeaderOptions) : List String :=
  [note, "#pragma once", ""] ++
  includes instructionIncludes ++
  ["", "namespace " ++ options.scope ++ " \x7b", ""] ++
  enumLines tables.instructions ++
  [""] ++
  tables.instructions.flatMap structLines ++
  [""] ++
  unionLines tables.instructions ++
  ["", "\x7d // namespace " ++ options.scope]

/-- The text of the instruction header. -/
def instructions (tables : Tables) (options : HeaderOptions) : String :=
  textOf (instructionLines tables options)

end DecoderTables.Header
