import DecoderTables.Proofs.Header.Callback
import DecoderTables.Proofs.Header.Clauses
import DecoderTables.Proofs.Header.Uniqueness
import DecoderTables.Proofs.Pattern.Separation
import DecoderTables.Proofs.Selector.Coverage

/-!
The decoder header as clauses. Its functions are found in the text with the lines that were written
for them, as long as whatever comes from the document and the options stays where it is put.
-/

namespace DecoderTables
open Identifier Json

namespace Header

/-- The names that an instruction gives to its data members: none if its field `fields` is missing
or holds anything but an object. -/
def fieldNames (fields : Members) : List String :=
  match fields.get? "fields" with
  | some (.object members) => members.map (·.1)
  | _ => []

/-- What a document and the options put into the decoder header stays in its place: names inside of
their lines, and the lines of a body inside of their function. -/
structure Enclosed (document : Document) (options : HeaderOptions) : Prop where
  scope : IsFlat options.scope
  instrHeader : '\n' ∉ options.instrHeader.toList
  instructions : ∀ entry ∈ document.instructions, IsFlat (pascalCase entry.1)
  members : ∀ entry ∈ document.instructions, ∀ name ∈ fieldNames entry.2, IsFlat name
  flags : ∀ entry ∈ document.decoders, ∀ flag ∈ entry.2.flags, IsFlat (pascalCase flag)
  decoders : ∀ entry ∈ document.decoders, Closed (bodyLines 1 (bodyOf entry.2.fields))
  splitters : ∀ entry ∈ document.splitters, Closed (bodyLines 1 (bodyOf entry.2.fields))

theorem names_dataMembers (instruction : Instruction) :
    (dataMembers instruction).map (·.1) = fieldNames instruction.fields := by
  unfold dataMembers fieldNames
  cases instruction.fields.get? "fields" with
  | none => rfl
  | some value =>
    cases value with
    | object members =>
      simp only [List.map_map]
      apply List.map_congr_left
      intro member _
      obtain ⟨name, value⟩ := member
      cases value with
      | string => rfl
      | _ => rfl
    | _ => rfl

/-! Lines that are flat or consist of flat parts. -/

theorem isFlat_indent (level : Nat) : IsFlat (indent level) := by
  intro c member
  rw [indent, String.toList_ofList] at member
  obtain ⟨_, rfl⟩ := List.mem_replicate.mp member
  decide

theorem IsFlat.line {text : String} (flat : IsFlat text) (level : Nat) :
    IsFlat (line level text) :=
  (isFlat_indent level).append flat

theorem Passes.line {first last : Nat} {text : String} (passes : Passes first last text)
    (level : Nat) : Passes first last (line level text) :=
  ((isFlat_indent level).passes first).append passes

theorem isFlat_toString (value : Nat) : IsFlat (toString value) := by
  apply isFlat_of_isWord
  simpa using isWord_toDigits value

theorem isFlat_ofDigits {digits : List Char} (only : IsDigits digits) :
    IsFlat (String.ofList digits) := by
  apply isFlat_of_isWord
  rw [String.toList_ofList]
  exact isWord_of_isDigits only

theorem isFlat_intercalate {texts : List String} (flat : ∀ text ∈ texts, IsFlat text) :
    IsFlat (", ".intercalate texts) := by
  induction texts with
  | nil => decide
  | cons text texts ih =>
    obtain ⟨here, later⟩ := List.forall_mem_cons.mp flat
    cases texts with
    | nil => simpa using here
    | cons next texts =>
      rw [String.intercalate_cons_cons]
      exact (here.append (by decide)).append (ih later)

theorem isFlat_assertion_of_fits {run : Run} {width value : Nat} (fits : run.Fits width value)
    (half : Half) : IsFlat (assertion (run.predicate half)) := by
  have raw : IsFlat (rawName half) := by cases half <;> decide
  have literal : IsFlat run.literal := fits.literal ▸ isFlat_ofDigits (isDigits_binaryDigits _ _)
  have digit : ∀ bit, IsFlat (binaryDigit bit).toString := by decide
  have fixed : ∀ text ∈ ["assert(", ");", "(Bm16::IsolateBit<", "U>(", ")) == 0b", "U", " == 0b",
      "(Bm16::ExtractBits1R<", "U, "], IsFlat text := by decide
  simp only [List.forall_mem_cons, List.not_mem_nil, false_implies, implies_true] at fixed
  rw [assertion, Run.predicate, condition]
  by_cases one : run.width = 1
  · simp only [one, ↓reduceIte, isFlat_append_iff, isFlat_toString, raw, digit, fixed, and_self]
  · simp only [one, ↓reduceIte]
    split
    · simp only [isFlat_append_iff, raw, literal, fixed, and_self]
    · simp only [isFlat_append_iff, isFlat_toString, raw, literal, fixed, and_self]

theorem isFlat_assertion (pattern : BitPattern) :
    ∀ predicate ∈ pattern.predicates, IsFlat (assertion predicate) := by
  rw [pattern.forall_mem_predicates_iff]
  intro part _
  refine List.forall_mem_map.mpr ?_
  intro run member
  obtain ⟨width, value, fits⟩ := part.2.exists_fits run member
  exact isFlat_assertion_of_fits fits part.1

/-! The functions. -/

def templateLine : String := "template <typename TCpuAccessor, typename TItOps>"

def definitionLine (name : String) : String :=
  "static Result<Instr> " ++ name ++ "(const RawInstr &rinstr, TCpuAccessor &cpua) \x7b"

/-- A function as clauses. -/
def functionClauses (name : String) (inner : List String) : List Clause :=
  [⟨templateLine, []⟩, ⟨definitionLine name, inner ++ ["\x7d"]⟩]

theorem moves_definitionLine {name : String} (flat : IsFlat name) :
    Moves 0 1 [definitionLine name] := by
  have start : Passes 0 0 "static Result<Instr> " := IsFlat.passes (by decide) 0
  have last : Passes 0 1 "(const RawInstr &rinstr, TCpuAccessor &cpua) \x7b" :=
    passes_of_plain (by decide) (by decide)
  exact ((start.append (flat.passes 0)).append last).moves

theorem closed_functionLines {name : String} (flat : IsFlat name) {inner : List String}
    (closed : Closed inner) : Closed (functionLines name inner) := by
  have template : Closed [templateLine] := IsFlat.closed (by decide)
  have closing : Moves 1 0 ["\x7d"] := by decide
  exact ((template.append (moves_definitionLine flat)).append closed.deeper).append closing

theorem clauses_functionLines {name : String} (flat : IsFlat name) {inner : List String}
    (closed : Closed inner) : clauses (functionLines name inner) = functionClauses name inner := by
  have template : Closed [templateLine] := IsFlat.closed (by decide)
  have block : clauses (definitionLine name :: (inner ++ ["\x7d"])) = _ :=
    clauses_block (moves_definitionLine flat) closed
  exact (clauses_cons template _).trans (congrArg _ block)

theorem cut_functionLines {name : String} (flat : IsFlat name) (inner : List String) :
    cut (functionLines name inner) = functionLines name (cut inner) := by
  have template : '\n' ∉ templateLine.toList := by decide
  have parts : IsFlat "static Result<Instr> " ∧
      '\n' ∉ "(const RawInstr &rinstr, TCpuAccessor &cpua) \x7b".toList := by decide
  have free : ∀ text ∈ functionHead name, '\n' ∉ text.toList := by
    rw [functionHead, List.forall_mem_cons, List.forall_mem_singleton]
    refine ⟨template, ?_⟩
    rw [String.toList_append, String.toList_append]
    simp only [List.mem_append, parts.1.not_mem, flat.not_mem, parts.2, or_self, not_false_eq_true]
  have closing : cut ["\x7d"] = ["\x7d"] := by decide
  rw [functionLines, cut_append, cut_append, cut_of_free free, closing]
  rfl

def tagLine (tag : String) : String :=
  line 1 ("const InstrId iid\x7bInstrId::" ++ tag ++ "\x7d;")

theorem closed_tagLine {tag : String} (flat : IsFlat tag) : Closed [tagLine tag] := by
  have start : Passes 0 1 "const InstrId iid\x7bInstrId::" :=
    passes_of_plain (by decide) (by decide)
  have last : Passes 1 0 "\x7d;" := passes_of_plain (by decide) (by decide)
  exact (((start.append (flat.passes 1)).append last).line 1).moves

theorem closed_returnLine {structName : String} (flat : IsFlat structName) {members : List String}
    (names : ∀ name ∈ members, IsFlat name) : Closed [returnLine structName members] := by
  have start : Passes 0 1 "return Ok(Instr\x7b" := passes_of_plain (by decide) (by decide)
  have inner : Passes 1 2 "\x7b" := passes_of_plain (by decide) (by decide)
  have last : Passes 2 0 "\x7d\x7d);" := passes_of_plain (by decide) (by decide)
  have builtIn : IsFlat "iid" ∧ IsFlat "flags" := by decide
  have listed : IsFlat (", ".intercalate ("iid" :: "flags" :: members)) := by
    apply isFlat_intercalate
    rw [List.forall_mem_cons, List.forall_mem_cons]
    exact ⟨builtIn.1, builtIn.2, names⟩
  have opened := (start.append (flat.passes 1)).append inner
  exact (((opened.append (listed.passes 2)).append last).line 1).moves

/-- The lines of a decoder are closed if what they name is flat and its own lines are closed. -/
theorem closed_decoderBody {instructions : List Instruction} {decoder : Decoder}
    (tag : IsFlat decoder.enumTag) (struct : IsFlat decoder.structName)
    (members : ∀ name ∈ initialised instructions decoder, IsFlat name)
    (predicates : ∀ predicate ∈ decoder.predicates, IsFlat (assertion predicate))
    (flags : ∀ flag ∈ decoder.flags, IsFlat (pascalCase flag))
    (body : Closed (bodyLines 1 (bodyOf decoder.fields))) :
    Closed (decoderBody instructions decoder) := by
  have optional : ∀ (condition : Bool) (text : String), Closed [text] →
      Closed (if condition then [text] else []) := by
    intro condition text closed
    cases condition with
    | true => exact closed
    | false => rfl
  have blank : Closed [""] := by decide
  have first : Closed [unusedAccess] := by decide +kernel
  have second : Closed [line 1 "u8 flags = 0x0U;", ""] := by decide +kernel
  have unused : Closed [unusedInstr] := by decide +kernel
  have wide : Closed [line 1 "flags |= static_cast<u8>(InstrFlags::k32Bit);"] := by decide +kernel
  have assertions : Closed (decoder.predicates.map fun predicate => line 1 (assertion predicate)) :=
    closed_of_forall (List.forall_mem_map.mpr fun predicate present =>
      ((predicates predicate present).line 1).closed)
  have flagLines : Closed (decoder.flags.map fun flag =>
      line 1 ("flags |= static_cast<InstrFlagsSet>(InstrFlags::k" ++ pascalCase flag ++ ");")) := by
    have parts : IsFlat "flags |= static_cast<InstrFlagsSet>(InstrFlags::k" ∧ IsFlat ");" := by
      decide
    exact closed_of_forall (List.forall_mem_map.mpr fun flag present =>
      (((parts.1.append (flags flag present)).append parts.2).line 1).closed)
  have head : Closed [unusedAccess, tagLine decoder.enumTag, line 1 "u8 flags = 0x0U;", ""] :=
    (first.append (closed_tagLine tag)).append second
  have last : Closed ["", returnLine decoder.structName (initialised instructions decoder)] :=
    blank.append (closed_returnLine struct members)
  exact ((((((head.append assertions).append (optional _ _ unused)).append
    (optional _ _ blank)).append flagLines).append body).append (optional _ _ wide)).append last

/-- What the function of a decoder is written from. -/
structure Described (instructions : List Instruction) (decoder : Decoder) (entry : DecoderEntry)
    (instruction : Instruction) : Prop where
  found : Instruction.find? instructions decoder.instruction = some instruction
  structName : decoder.structName = instruction.structName
  enumTag : decoder.enumTag = instruction.enumTag
  flags : ∀ flag ∈ decoder.flags, flag ∈ entry.flags
  predicates : ∀ predicate ∈ decoder.predicates, IsFlat (assertion predicate)
  fields : decoder.fields = entry.fields

variable {document : Document} {tables : Tables} {options : HeaderOptions}

theorem exists_described (built : Tables.Built document tables) {decoder : Decoder}
    (member : decoder ∈ tables.decoders) :
    ∃ entry ∈ document.decoders, ∃ instruction ∈ tables.instructions,
      Described tables.instructions decoder entry.2 instruction := by
  obtain ⟨entry, listed, made⟩ := exists_of_map_ok built.decoders member
  obtain ⟨instruction, pattern, found, _, rfl⟩ := (Decoder.ofEntry_eq_ok_iff _ _ _ _).mp made
  have name : instruction.name = entry.2.instruction := by
    simpa using List.find?_some found
  refine ⟨entry, listed, instruction, List.mem_of_find?_eq_some found, ?_, rfl, rfl,
    fun _ => FlagSet.mem_ofList.mp, ?_, rfl⟩
  · rw [name, found]
  · cases pattern with
    | none => exact fun _ member => absurd member List.not_mem_nil
    | some pattern => exact isFlat_assertion pattern

theorem Described.initialised_eq {instructions : List Instruction} {decoder : Decoder}
    {entry : DecoderEntry} {instruction : Instruction}
    (described : Described instructions decoder entry instruction) :
    initialised instructions decoder = fieldNames instruction.fields := by
  rw [initialised, described.found]
  exact names_dataMembers instruction

theorem exists_entry_of_mem_instructions (built : Tables.Built document tables)
    {instruction : Instruction} (member : instruction ∈ tables.instructions) :
    ∃ entry ∈ document.instructions, instruction = .ofEntry entry.1 entry.2 := by
  rw [built.instructions] at member
  obtain ⟨entry, listed, rfl⟩ := List.mem_map.mp member
  exact ⟨entry, listed, rfl⟩

namespace Enclosed

variable (enclosed : Enclosed document options) (built : Tables.Built document tables)

include enclosed built

theorem closed_decoderBody {decoder : Decoder} (member : decoder ∈ tables.decoders) :
    Closed (decoderBody tables.instructions decoder) := by
  obtain ⟨entry, listed, instruction, known, described⟩ := exists_described built member
  obtain ⟨source, given, rfl⟩ := exists_entry_of_mem_instructions built known
  have name := enclosed.instructions source given
  apply Header.closed_decoderBody _ _ _ described.predicates
  · exact fun flag present => enclosed.flags entry listed flag (described.flags flag present)
  · rw [described.fields]
    exact enclosed.decoders entry listed
  · rw [described.enumTag]
    exact IsFlat.append (by decide) name
  · rw [described.structName]
    exact IsFlat.append (by decide) name
  · rw [described.initialised_eq]
    exact enclosed.members source given

theorem closed_splitterBody {splitter : Splitter} (member : splitter ∈ tables.splitters) :
    Closed (splitterBody splitter) := by
  rw [built.splitters] at member
  obtain ⟨entry, listed, rfl⟩ := List.mem_map.mp member
  have empty : Closed [unusedInstr, line 1 "static_cast<void>(cpua);"] := by decide +kernel
  have last : Closed [unknownOpcode] := by decide +kernel
  apply Moves.append (Moves.append _ (enclosed.splitters entry listed)) last
  split
  · exact empty
  · rfl

end Enclosed

/-! The dispatch. -/

theorem moves_caseLines {entry : SelectorEntry} (bin : IsFlat entry.bin)
    (callback : IsFlat entry.callback) : Closed (caseLines entry) := by
  have label : Passes 0 0 "case 0b" := IsFlat.passes (by decide) 0
  have opening : Passes 0 1 "U: \x7b" := passes_of_plain (by decide) (by decide)
  have call : IsFlat (callLine 2 entry.callback) :=
    ((IsFlat.append (by decide) callback).append (by decide)).line 2
  have closing : Moves 1 0 [line 1 "\x7d"] := by decide
  have head := (((label.append (bin.passes 0)).append opening).line 1).moves
  exact (head.append call.closed.deeper).append closing

theorem closed_callBody {opcodes : List SelectorEntry}
    (flat : ∀ entry ∈ opcodes, IsFlat entry.bin ∧ IsFlat entry.callback) :
    Closed (callBody opcodes) := by
  have cases : Closed (opcodes.flatMap caseLines) :=
    closed_flatMap fun entry member => moves_caseLines (flat entry member).1 (flat entry member).2
  have start : Moves 0 1 [line 1 ("const u16 opc = " ++
      "Bm32::ExtractBits1R<kDecodersOpCodeLast, kDecodersOpCodeFirst>(rinstr.low);"),
    line 1 "switch (opc) \x7b"] := by decide +kernel
  have last : Moves 1 0 defaultLines := by decide +kernel
  exact (start.append cases.deeper).append last

/-! The header. -/

/-- The functions that a dispatch may call. -/
def callableNames (tables : Tables) : List String :=
  invalidDecoder :: tables.decoders.map (·.callback) ++ tables.splitters.map (·.callback)

theorem forall_mem_callableNames_iff (built : Tables.Built document tables)
    (holds : String → Prop) :
    (∀ name ∈ callableNames tables, holds name) ↔
      holds invalidDecoder ∧ (∀ entry ∈ document.decoders, holds (decoderCallback entry.1)) ∧
        ∀ entry ∈ document.splitters, holds (splitterCallback entry.1) := by
  rw [callableNames, built.decoderCallbacks_eq, built.splitterCallbacks_eq,
    built.splitterNames_eq, List.cons_append, List.forall_mem_cons, List.forall_mem_append]
  simp only [List.forall_mem_map]

/-- The lines of the decoder header before its namespace. -/
def includeLines (options : HeaderOptions) : List String :=
  [note, "#pragma once", ""] ++ includes (options.instrHeader :: decoderIncludes) ++
    ["#include <assert.h>", "#include <cstdint>", ""]

def constantLines (options : HeaderOptions) : List String :=
  ["", "using Bm8 = BitManip<u8>;", "using Bm16 = BitManip<u16>;", "using Bm32 = BitManip<u32>;",
    "", selectorLine "kDecodersOpCodeLast" options.opcodeLast,
    selectorLine "kDecodersOpCodeFirst" options.opcodeFirst, ""]

def closingLines (options : HeaderOptions) : List String :=
  ["", "\x7d // namespace " ++ options.scope]

/-- The lines of the decoder header in its namespace. -/
def namespaceBody (tables : Tables) (options : HeaderOptions) : List String :=
  constantLines options ++ (invalidLines ++
    (tables.decoders.flatMap (fun decoder => "" :: decoderLines tables.instructions decoder) ++
      (tables.splitters.flatMap (fun splitter => "" :: splitterLines splitter) ++
        ("" :: callLines tables.opcodes ++ closingLines options))))

theorem decoderHeaderLines_eq (tables : Tables) (options : HeaderOptions) :
    decoderHeaderLines tables options = includeLines options ++
      ("namespace " ++ options.scope ++ " \x7b") :: namespaceBody tables options := by
  simp only [decoderHeaderLines, includeLines, namespaceBody, constantLines, closingLines,
    List.append_assoc, List.cons_append, List.nil_append]

theorem namespaceLines_decoderHeader (tables : Tables) (scope : '\n' ∉ options.scope.toList)
    (instrHeader : '\n' ∉ options.instrHeader.toList) :
    namespaceLines (textOf (decoderHeaderLines tables options)) =
      cut (namespaceBody tables options) := by
  rw [decoderHeaderLines_eq]
  apply namespaceLines_textOf _ scope
  have included : ∀ path : String, '\n' ∉ path.toList →
      '\n' ∉ ("#include \"" ++ path ++ "\"").toList ∧
        namespaceForm.read? ("#include \"" ++ path ++ "\"") = none := by
    intro path free
    constructor
    · simpa using free
    · rw [String.append_assoc]
      exact read?_of_clash _ _ _ (by decide)
  have known : ∀ path ∈ decoderIncludes, '\n' ∉ path.toList := by decide +kernel
  have preamble : ∀ line ∈ [note, "#pragma once", ""],
      '\n' ∉ line.toList ∧ namespaceForm.read? line = none := by decide +kernel
  have system : ∀ line ∈ ["#include <assert.h>", "#include <cstdint>", ""],
      '\n' ∉ line.toList ∧ namespaceForm.read? line = none := by decide +kernel
  rw [includeLines, List.forall_mem_append, List.forall_mem_append]
  refine ⟨⟨preamble, ?_⟩, system⟩
  rw [includes, List.forall_mem_map, List.forall_mem_cons]
  exact ⟨included _ instrHeader, fun path member => included path (known path member)⟩

def plainClauses (lines : List String) : List Clause :=
  lines.map fun line => ⟨line, []⟩

/-- What the namespace of the decoder header consists of. -/
def headerClauses (tables : Tables) (options : HeaderOptions) : List Clause :=
  plainClauses (constantLines options) ++
    (functionClauses invalidDecoder (cut [unusedInstr, unusedAccess, unknownOpcode]) ++
      (tables.decoders.flatMap (fun decoder => ⟨"", []⟩ ::
          functionClauses decoder.callback (cut (decoderBody tables.instructions decoder))) ++
        (tables.splitters.flatMap (fun splitter => ⟨"", []⟩ ::
            functionClauses splitter.callback (cut (splitterBody splitter))) ++
          (⟨"", []⟩ :: functionClauses "call_decoder" (cut (callBody tables.opcodes)) ++
            plainClauses (closingLines options)))))

theorem isFlat_selectorLine {name : String} (flat : IsFlat name) (bit : UInt32) :
    IsFlat (selectorLine name bit) := by
  have parts : IsFlat "static constexpr u32 " ∧ IsFlat " = " ∧ IsFlat "U;" := by decide
  exact (((parts.1.append flat).append parts.2.1).append (isFlat_toString _)).append parts.2.2

theorem isFlat_constantLines (options : HeaderOptions) :
    ∀ line ∈ constantLines options, IsFlat line := by
  have fixed : ∀ line ∈ ["", "using Bm8 = BitManip<u8>;", "using Bm16 = BitManip<u16>;",
      "using Bm32 = BitManip<u32>;"], IsFlat line := by decide +kernel
  simp only [List.forall_mem_cons, List.not_mem_nil, false_implies, implies_true, and_true] at fixed
  obtain ⟨blank, first, second, third⟩ := fixed
  simp only [constantLines, List.forall_mem_cons, List.not_mem_nil, false_implies, implies_true,
    and_true]
  exact ⟨blank, first, second, third, blank, isFlat_selectorLine (by decide) _,
    isFlat_selectorLine (by decide) _, blank⟩

theorem clauses_blank_functionLines {name : String} (flat : IsFlat name) {inner : List String}
    (closed : Closed inner) :
    clauses (cut ("" :: functionLines name inner)) =
      ⟨"", []⟩ :: functionClauses name (cut inner) := by
  rw [clauses_cut_cons_empty, cut_functionLines flat,
    clauses_functionLines flat (moves_cut_iff.mpr closed)]

theorem closed_blank_functionLines {name : String} (flat : IsFlat name) {inner : List String}
    (closed : Closed inner) : Closed ("" :: functionLines name inner) := by
  have blank : Closed [""] := by decide
  exact blank.append (closed_functionLines flat closed)

theorem clauses_closingLines (options : HeaderOptions) (scope : '\n' ∉ options.scope.toList) :
    clauses (cut (closingLines options)) = plainClauses (closingLines options) := by
  have free : ∀ line ∈ closingLines options, '\n' ∉ line.toList := by
    simpa [closingLines] using scope
  rw [cut_of_free free, closingLines, clauses_cons (by decide), clauses_singleton]
  rfl

/-- The namespace begins with constants and the function for invalid instructions. -/
theorem clauses_cut_start (options : HeaderOptions) (rest : List String) :
    clauses (cut (constantLines options ++ (invalidLines ++ rest))) =
      plainClauses (constantLines options) ++
        (functionClauses invalidDecoder (cut [unusedInstr, unusedAccess, unknownOpcode]) ++
          clauses (cut rest)) := by
  have constants := isFlat_constantLines options
  have closed : Closed (constantLines options) :=
    closed_of_forall fun line member => (constants line member).closed
  have rejecting : Closed [unusedInstr, unusedAccess, unknownOpcode] := by decide +kernel
  have invalid : IsFlat invalidDecoder := by decide
  have function : Closed invalidLines := closed_functionLines invalid rejecting
  have ofInvalid : cut invalidLines = _ := cut_functionLines invalid _
  rw [clauses_cut_append closed, clauses_cut_of_isFlat constants, clauses_cut_append function,
    ofInvalid, clauses_functionLines invalid (moves_cut_iff.mpr rejecting)]
  rfl

theorem clauses_namespaceBody (scope : '\n' ∉ options.scope.toList)
    (callbacks : ∀ name ∈ callableNames tables, IsFlat name)
    (decoders : ∀ decoder ∈ tables.decoders, Closed (decoderBody tables.instructions decoder))
    (splitters : ∀ splitter ∈ tables.splitters, Closed (splitterBody splitter))
    (opcodes : Closed (callBody tables.opcodes)) :
    clauses (cut (namespaceBody tables options)) = headerClauses tables options := by
  rw [callableNames, List.cons_append, List.forall_mem_cons, List.forall_mem_append,
    List.forall_mem_map, List.forall_mem_map] at callbacks
  obtain ⟨_, decoderNames, splitterNames⟩ := callbacks
  have dispatch : IsFlat "call_decoder" := by decide
  have eachDecoder : ∀ decoder ∈ tables.decoders,
      Closed ("" :: decoderLines tables.instructions decoder) := fun decoder member =>
    closed_blank_functionLines (decoderNames decoder member) (decoders decoder member)
  have eachSplitter : ∀ splitter ∈ tables.splitters, Closed ("" :: splitterLines splitter) :=
    fun splitter member =>
      closed_blank_functionLines (splitterNames splitter member) (splitters splitter member)
  have calls : Closed ("" :: callLines tables.opcodes) :=
    closed_blank_functionLines dispatch opcodes
  have ofDecoders : tables.decoders.flatMap
      (fun decoder => clauses (cut ("" :: decoderLines tables.instructions decoder))) = _ :=
    List.flatMap_congr fun decoder member =>
      clauses_blank_functionLines (decoderNames decoder member) (decoders decoder member)
  have ofSplitters : tables.splitters.flatMap
      (fun splitter => clauses (cut ("" :: splitterLines splitter))) = _ :=
    List.flatMap_congr fun splitter member =>
      clauses_blank_functionLines (splitterNames splitter member) (splitters splitter member)
  have ofCalls : clauses (cut ("" :: callLines tables.opcodes)) = _ :=
    clauses_blank_functionLines dispatch opcodes
  rw [namespaceBody, clauses_cut_start, clauses_cut_append (closed_flatMap eachDecoder),
    clauses_cut_flatMap _ eachDecoder, ofDecoders,
    clauses_cut_append (closed_flatMap eachSplitter), clauses_cut_flatMap _ eachSplitter,
    ofSplitters, clauses_cut_append calls, ofCalls, clauses_closingLines options scope]
  rfl

end Header

namespace Tables

variable {document : Document} {tables : Tables}

theorem callback_mem_of_mem_callees {name : String} {callee : Callee}
    (member : callee ∈ tables.callees name) :
    callee.callback ∈ tables.decoders.map (·.callback) ++ tables.splitters.map (·.callback) := by
  rcases List.mem_append.mp member with decoder | splitter
  · obtain ⟨decoder, found, rfl⟩ := List.mem_map.mp decoder
    exact List.mem_append_left _ (List.mem_map_of_mem (List.mem_filter.mp found).1)
  · obtain ⟨splitter, found, rfl⟩ := List.mem_map.mp splitter
    exact List.mem_append_right _ (List.mem_map_of_mem (List.mem_filter.mp found).1)

theorem Covers.callback_mem {index : Nat} {entry : SelectorEntry}
    (covers : Covers document tables index entry) :
    entry.callback ∈ Header.callableNames tables := by
  by_cases known : entry.bin ∈ document.opcodes.map (·.1)
  · obtain ⟨⟨key, opcode⟩, member, same⟩ := List.mem_map.mp known
    obtain rfl : key = entry.bin := same
    have callees := (covers.used opcode member).1
    exact List.mem_cons_of_mem _ (callback_mem_of_mem_callees (callees ▸ List.mem_cons_self))
  · exact (covers.unused known).2.1 ▸ List.mem_cons_self

end Tables

namespace Header

variable {document : Document} {tables : Tables} {options : HeaderOptions}

/-- Names that stay in their lines and bodies that stay in their functions leave the clauses of the
decoder header as they are written. -/
theorem clausesOf_decoderHeader (built : Tables.Built document tables)
    (enclosed : Enclosed document options)
    (callbacks : ∀ name ∈ callableNames tables, IsFlat name) :
    clausesOf (textOf (decoderHeaderLines tables options)) = headerClauses tables options := by
  have scope := enclosed.scope.not_mem
  have opcodes : ∀ entry ∈ tables.opcodes, IsFlat entry.bin ∧ IsFlat entry.callback := by
    intro entry member
    obtain ⟨index, bound, rfl⟩ := List.mem_iff_getElem.mp member
    have covers := built.covers_getElem index bound
    refine ⟨?_, callbacks _ covers.callback_mem⟩
    rw [covers.bin]
    exact isFlat_ofDigits (isDigits_binaryDigits _ _)
  rw [clausesOf, namespaceLines_decoderHeader tables scope enclosed.instrHeader]
  exact clauses_namespaceBody scope callbacks
    (fun decoder member => enclosed.closed_decoderBody built member)
    (fun splitter member => enclosed.closed_splitterBody built member) (closed_callBody opcodes)

theorem heads_plainClauses (lines : List String) :
    (plainClauses lines).map (·.head) = lines := by
  rw [plainClauses, List.map_map]
  exact List.map_id lines

theorem heads_functionClauses (name : String) (inner : List String) :
    (functionClauses name inner).map (·.head) = functionHead name := rfl

theorem declaredNames_constantLines (options : HeaderOptions) :
    declaredNames (constantLines options) = [] := by
  have aliases : declaredNames ["", "using Bm8 = BitManip<u8>;", "using Bm16 = BitManip<u16>;",
      "using Bm32 = BitManip<u32>;", ""] = [] := by decide +kernel
  have constants : declaredNames [selectorLine "kDecodersOpCodeLast" options.opcodeLast,
      selectorLine "kDecodersOpCodeFirst" options.opcodeFirst, ""] = [] := by
    rw [declaredNames_cons_of_none (declared?_selectorLine _ _),
      declaredNames_cons_of_none (declared?_selectorLine _ _), declaredNames_cons_empty,
      declaredNames_nil]
  exact (declaredNames_append _ _).trans (congrArg₂ (· ++ ·) aliases constants)

theorem declaredNames_closingLines (options : HeaderOptions) :
    declaredNames (closingLines options) = [] := by
  rw [closingLines, declaredNames_cons_empty,
    declaredNames_cons_of_none (declared?_closing options.scope), declaredNames_nil]

theorem declaredNames_start (options : HeaderOptions) (inner : List String)
    (rest : List Clause) :
    declaredNames ((plainClauses (constantLines options) ++
        (functionClauses invalidDecoder inner ++ rest)).map (·.head)) =
      invalidDecoder :: declaredNames (rest.map (·.head)) := by
  simp only [List.map_append, heads_plainClauses, heads_functionClauses, declaredNames_append,
    declaredNames_constantLines, declaredNames_functionHead, List.nil_append, List.cons_append]

variable {text : String} (known : clausesOf text = headerClauses tables options)

include known

/-- The functions of the decoder header: one for invalid instructions, the callbacks of the
decoders, those of the splitters, and the dispatch. -/
theorem definedNames_of_clauses : definedNames text = callableNames tables ++ ["call_decoder"] := by
  rw [definedNames, scopeLines, known, headerClauses, declaredNames_start]
  simp only [List.map_append, List.map_cons, List.map_flatMap, heads_plainClauses,
    heads_functionClauses, declaredNames_append, declaredNames_cons_empty,
    declaredNames_closingLines, declaredNames_functionHead, declaredNames_flatMap,
    ← List.map_eq_flatMap, callableNames, List.append_nil, List.cons_append, List.append_assoc]

theorem nodup_definedNames (built : Tables.Built document tables) : (definedNames text).Nodup := by
  rw [definedNames_of_clauses known]
  exact built.nodup_functions

theorem functionBody_of_definition (built : Tables.Built document tables) {name : String}
    {inner : List String}
    (member : ⟨definitionLine name, inner ++ ["\x7d"]⟩ ∈ headerClauses tables options) :
    functionBody name text = inner :=
  blockOf_of_mem (nodup_definedNames known built) (known ▸ member) (declared?_function name)

theorem functionBody_decoder (built : Tables.Built document tables) {decoder : Decoder}
    (member : decoder ∈ tables.decoders) :
    functionBody decoder.callback text = cut (decoderBody tables.instructions decoder) := by
  apply functionBody_of_definition known built
  have here : ⟨definitionLine decoder.callback,
      cut (decoderBody tables.instructions decoder) ++ ["\x7d"]⟩ ∈ tables.decoders.flatMap
        fun decoder => (⟨"", []⟩ : Clause) ::
          functionClauses decoder.callback (cut (decoderBody tables.instructions decoder)) :=
    List.mem_flatMap.mpr ⟨decoder, member,
      List.mem_cons_of_mem _ (List.mem_cons_of_mem _ (List.mem_singleton_self _))⟩
  exact List.mem_append_right _ (List.mem_append_right _ (List.mem_append_left _ here))

theorem functionBody_dispatch (built : Tables.Built document tables) :
    functionBody "call_decoder" text = cut (callBody tables.opcodes) := by
  apply functionBody_of_definition known built
  have here :
      ⟨definitionLine "call_decoder", cut (callBody tables.opcodes) ++ ["\x7d"]⟩ ∈
        (⟨"", []⟩ : Clause) :: functionClauses "call_decoder" (cut (callBody tables.opcodes)) :=
    List.mem_cons_of_mem _ (List.mem_cons_of_mem _ (List.mem_singleton_self _))
  exact List.mem_append_right _ (List.mem_append_right _ (List.mem_append_right _
    (List.mem_append_right _ (List.mem_append_left _ here))))

end Header

end DecoderTables
