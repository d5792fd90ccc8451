import DecoderTables.Header.Layout
import DecoderTables.Tables

/-!
The decoder header: one function for each decoder and each splitter, and the function that calls
one of them by the selector.
-/

namespace DecoderTables.Header

def decoderIncludes : List String := [
  "libmicroemu/internal/fetcher/raw_instr.h",
  "libmicroemu/internal/logic/thumb.h",
  "libmicroemu/internal/result.h",
  "libmicroemu/internal/utils/bit_manip.h",
  "libmicroemu/register_details.h",
  "libmicroemu/types.h"]

/-- The head of a function, up to its opening brace. -/
def functionHead (name : String) : List String :=
  ["template <typename TCpuAccessor, typename TItOps>",
    "static Result<Instr> " ++ name ++ "(const RawInstr &rinstr, TCpuAccessor &cpua) \x7b"]

def functionLines (name : String) (inner : List String) : List String :=
  functionHead name ++ inner ++ ["\x7d"]

def unusedInstr : String := line 1 "static_cast<void>(rinstr);"

def unusedAccess : String :=
  line 1 "static_cast<void>(cpua); // prevents warning when cpua is not used"

def unknownOpcode : String :=
  line 1 "return Err<Instr>(StatusCode::kDecoderUnknownOpCode);"

def rawName : Half → String
  | .lo => "rinstr.low"
  | .hi => "rinstr.high"

/-- The condition of a predicate: the whole half-word, one bit, or some bits aligned right. -/
def condition (predicate : Predicate) : String :=
  let raw := rawName predicate.half
  match predicate.check with
  | .bit place value =>
      "(Bm16::IsolateBit<" ++ toString place ++ "U>(" ++ raw ++ ")) == 0b" ++
        (binaryDigit value).toString ++ "U"
  | .range high low literal =>
      if predicate.check.isFull then raw ++ " == 0b" ++ literal ++ "U"
      else
        "(Bm16::ExtractBits1R<" ++ toString high ++ "U, " ++ toString low ++ "U>(" ++ raw ++
          ")) == 0b" ++ literal ++ "U"

def assertion (predicate : Predicate) : String :=
  "assert(" ++ condition predicate ++ ");"

/-- The struct of a decoded instruction with its data members in order. -/
def returnLine (structName : String) (members : List String) : String :=
  line 1 ("return Ok(Instr\x7b" ++ structName ++ "\x7b" ++
    ", ".intercalate ("iid" :: "flags" :: members) ++ "\x7d\x7d);")

/-- The data members of the instruction of a decoder, which is looked up by its name. -/
def initialised (instructions : List Instruction) (decoder : Decoder) : List String :=
  match Instruction.find? instructions decoder.instruction with
  | some instruction => (dataMembers instruction).map (·.1)
  | none => []

def decoderBody (instructions : List Instruction) (decoder : Decoder) : List String :=
  let body := bodyOf decoder.fields
  [unusedAccess, line 1 ("const InstrId iid\x7bInstrId::" ++ decoder.enumTag ++ "\x7d;"),
    line 1 "u8 flags = 0x0U;", ""] ++
  decoder.predicates.map (fun predicate => line 1 (assertion predicate)) ++
  (if body.isEmpty then [unusedInstr] else []) ++
  (if !decoder.flags.isEmpty || decoder.isWide || !body.isEmpty then [""] else []) ++
  decoder.flags.map (fun flag => line 1 ("flags |= static_cast<InstrFlagsSet>(InstrFlags::k" ++
    Identifier.pascalCase flag ++ ");")) ++
  bodyLines 1 body ++
  (if decoder.isWide then [line 1 "flags |= static_cast<u8>(InstrFlags::k32Bit);"] else []) ++
  ["", returnLine decoder.structName (initialised instructions decoder)]

def decoderLines (instructions : List Instruction) (decoder : Decoder) : List String :=
  functionLines decoder.callback (decoderBody instructions decoder)

def splitterBody (splitter : Splitter) : List String :=
  let body := bodyOf splitter.fields
  (if body.isEmpty then [unusedInstr, line 1 "static_cast<void>(cpua);"] else []) ++
  bodyLines 1 body ++
  [unknownOpcode]

def splitterLines (splitter : Splitter) : List String :=
  functionLines splitter.callback (splitterBody splitter)

def callLine (level : Nat) (callback : String) : String :=
  line level ("return " ++ callback ++ "<TCpuAccessor, TItOps>(rinstr, cpua);")

def caseLines (entry : SelectorEntry) : List String :=
  [line 1 ("case 0b" ++ entry.bin ++ "U: \x7b"), callLine 2 entry.callback, line 1 "\x7d"]

/-- The end of the dispatch, from the default branch on. -/
def defaultLines : List String :=
  [line 1 "default: \x7b", line 2 "assert(false);", line 2 "// should not happen",
    line 2 "break;", line 1 "\x7d", line 1 "\x7d", callLine 1 Identifier.invalidDecoder]

/-- The dispatch on the selector. -/
def callBody (opcodes : List SelectorEntry) : List String :=
  [line 1 ("const u16 opc = " ++
      "Bm32::ExtractBits1R<kDecodersOpCodeLast, kDecodersOpCodeFirst>(rinstr.low);"),
    line 1 "switch (opc) \x7b"] ++
  opcodes.flatMap caseLines ++
  defaultLines

def callLines (opcodes : List SelectorEntry) : List String :=
  functionLines "call_decoder" (callBody opcodes)

def invalidLines : List String :=
  functionLines Identifier.invalidDecoder [unusedInstr, unusedAccess, unknownOpcode]

def selectorLine (name : String) (bit : UInt32) : String :=
  "static constexpr u32 " ++ name ++ " = " ++ toString bit.toNat ++ "U;"

def decoderHeaderLines (tables : Tables) (options : HeaderOptions) : List String :=
  [note, "#pragma once", ""] ++
  includes (options.instrHeader :: decoderIncludes) ++
  ["#include <assert.h>", "#include <cstdint>", "",
    "namespace " ++ options.scope ++ " \x7b", "",
    "using Bm8 = BitManip<u8>;", "using Bm16 = BitManip<u16>;", "using Bm32 = BitManip<u32>;", "",
    selectorLine "kDecodersOpCodeLast" options.opcodeLast,
    selectorLine "kDecodersOpCodeFirst" options.opcodeFirst, ""] ++
  invalidLines ++
  tables.decoders.flatMap (fun decoder => "" :: decoderLines tables.instructions decoder) ++
  tables.splitters.flatMap (fun splitter => "" :: splitterLines splitter) ++
  [""] ++
  callLines tables.opcodes ++
  ["", "\x7d // namespace " ++ options.scope]

/-- The text of the decoder header, if the selector fits in the low half-word. -/
def decoders? (tables : Tables) (options : HeaderOptions) : Option String :=
  if options.isValid then some (textOf (decoderHeaderLines tables options)) else none

end DecoderTables.Header
