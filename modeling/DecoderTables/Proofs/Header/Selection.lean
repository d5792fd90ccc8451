import DecoderTables.Proofs.Header.Dispatch

/-!
What the dispatch of the decoder header calls. Its constants are those of the options, its cases are
the entries of the table, and all that it may call stands before it, unless a body ends its function
and defines another one.
-/

namespace DecoderTables
open Identifier Json

namespace Header

/-- The names of decoders and splitters are made of ASCII letters, digits and underscores. -/
structure PlainNames (document : Document) : Prop where
  decoders : ∀ name ∈ document.decoders.map (·.1), IsWord name.toList
  splitters : ∀ name ∈ document.splitters.map (·.1), IsWord name.toList

variable {document : Document} {tables : Tables} {options : HeaderOptions}

theorem isName_of_mem_callableNames (built : Tables.Built document tables)
    (plain : PlainNames document) :
    ∀ name ∈ callableNames tables, IsName name := by
  rw [forall_mem_callableNames_iff built]
  refine ⟨isName_invalidDecoder, ?_, ?_⟩
  · intro entry listed
    exact isName_decoderCallback (plain.decoders entry.1 (List.mem_map_of_mem listed))
  · intro entry listed
    exact isName_splitterCallback (plain.splitters entry.1 (List.mem_map_of_mem listed))

theorem printable_of_mem_opcodes (built : Tables.Built document tables)
    (plain : PlainNames document) :
    ∀ entry ∈ tables.opcodes, Printable entry := by
  intro entry member
  obtain ⟨index, bound, rfl⟩ := List.mem_iff_getElem.mp member
  have covers := built.covers_getElem index bound
  constructor
  · rw [covers.number, ← built.length_opcodes]
    exact bound
  · rw [covers.number, covers.bin]
  · exact isName_of_mem_callableNames built plain _ covers.callback_mem

theorem toNat_opcodeLast {options : HeaderOptions} (valid : options.isValid = true) :
    options.opcodeLast.toNat = options.opcodeFirst.toNat + 4 := by
  have le := of_decide_eq_true valid
  have small : options.opcodeFirst.toNat ≤ 11 := UInt32.le_iff_toNat_le.mp le
  rw [HeaderOptions.opcodeLast, UInt32.toNat_ofNat']
  simp only [Selector.width]
  omega

/-- The dispatch of the decoder header over the entries of a table. -/
def dispatchOf (tables : Tables) (options : HeaderOptions) : Dispatch where
  high := options.opcodeLast.toNat
  low := options.opcodeFirst.toNat
  branches := tables.opcodes.map branchOf
  fallback := invalidDecoder

theorem constant?_of_clauses {text : String}
    (known : clausesOf text = headerClauses tables options) :
    constant? "kDecodersOpCodeLast".toList (scopeLines text) = some options.opcodeLast.toNat ∧
      constant? "kDecodersOpCodeFirst".toList (scopeLines text) =
        some options.opcodeFirst.toNat := by
  have last : IsName "kDecodersOpCodeLast" := ⟨by decide, isWord_of_all rfl⟩
  have first : IsName "kDecodersOpCodeFirst" := ⟨by decide, isWord_of_all rfl⟩
  have differ : "kDecodersOpCodeLast".toList ≠ "kDecodersOpCodeFirst".toList := by decide
  have aliases : ∀ name, constant? name ["", "using Bm8 = BitManip<u8>;",
      "using Bm16 = BitManip<u16>;", "using Bm32 = BitManip<u32>;", ""] = none := fun _ => rfl
  obtain ⟨rest, split⟩ : ∃ rest, scopeLines text = ["", "using Bm8 = BitManip<u8>;",
      "using Bm16 = BitManip<u16>;", "using Bm32 = BitManip<u32>;", ""] ++
        selectorLine "kDecodersOpCodeLast" options.opcodeLast ::
          selectorLine "kDecodersOpCodeFirst" options.opcodeFirst :: rest := by
    rw [scopeLines, known, headerClauses, List.map_append, heads_plainClauses]
    exact ⟨_, rfl⟩
  rw [split, constant?_append_of_none (aliases _), constant?_append_of_none (aliases _)]
  constructor
  · rw [constant?, List.findSome?_cons, constantOf?_selectorLine last, if_pos rfl]
  · rw [constant?, List.findSome?_cons, constantOf?_selectorLine last, if_neg differ,
      List.findSome?_cons, constantOf?_selectorLine first, if_pos rfl]

/-- The dispatch reads back from the decoder header. -/
theorem read?_of_clauses (built : Tables.Built document tables) (plain : PlainNames document)
    {text : String} (known : clausesOf text = headerClauses tables options) :
    Dispatch.read? text = some (dispatchOf tables options) := by
  have printable := printable_of_mem_opcodes built plain
  have branches := readBranches?_flatMap tables.opcodes printable defaultLines
    readBranches?_defaultLines
  obtain ⟨high, low⟩ := constant?_of_clauses known
  rw [Dispatch.read?, functionBody_dispatch known built, cut_callBody printable, callBody_eq]
  simp only [capture_fieldLine, capture_switchLine, branches, capture_defaultLines, high, low,
    Option.bind_eq_bind, Option.bind_some, Option.pure_def, String.ofList_toList]
  rfl

namespace Dispatch

theorem run_eq (dispatch : Dispatch) (lo : HalfWord) :
    dispatch.run lo =
      match (dispatch.matching lo).head? with
      | some branch => .calls branch.callee
      | none => .unmatched dispatch.fallback := by
  rw [matching, List.head?_filter]
  rfl

/-- Of distinct labels only the one that is the value of the field matches. -/
theorem matching_eq_singleton {dispatch : Dispatch} {lo : HalfWord} {branch : Branch}
    (distinct : (dispatch.branches.map (·.label)).Nodup) (member : branch ∈ dispatch.branches)
    (label : branch.label = dispatch.selector lo) : dispatch.matching lo = [branch] := by
  have found : branch ∈ dispatch.matching lo :=
    List.mem_filter.mpr ⟨member, decide_eq_true label⟩
  have only := filter_key_eq Branch.label dispatch.branches distinct (dispatch.selector lo)
  rw [← matching] at only
  rw [only, Option.mem_toList] at found
  rw [only, found]
  rfl

end Dispatch

theorem selector_dispatchOf (tables : Tables) {options : HeaderOptions}
    (valid : options.isValid = true) (lo : HalfWord) :
    (dispatchOf tables options).selector lo = (lo.toNat >>> options.opcodeFirst.toNat) &&& 31 := by
  have span : options.opcodeLast.toNat - options.opcodeFirst.toNat + 1 = 5 := by
    rw [toNat_opcodeLast valid]
    omega
  rw [Dispatch.selector, BitVec.extractLsb_toNat, dispatchOf, span]
  exact (Nat.and_two_pow_sub_one_eq_mod _ 5).symm

theorem labels_dispatchOf (built : Tables.Built document tables) (options : HeaderOptions) :
    (dispatchOf tables options).branches.map (·.label) = List.range 32 := by
  rw [dispatchOf, List.map_map]
  apply List.ext_getElem
  · rw [List.length_map, built.length_opcodes, List.length_range]
  · intro index bound _
    rw [List.length_map] at bound
    rw [List.getElem_map, List.getElem_range]
    exact (built.covers_getElem index bound).number

/-- A decoder and a splitter whose bodies have blocks and comments. -/
def branchDocument : Document where
  instructions := [("b", [("fields", .object [("imm32", .string "i32")])])]
  decoders := [("b_t2", ⟨"b", ["set_flags"], some ⟨"11100xxxxxxxxxxx", none⟩,
    [("body", .array [
      .string "if (TItOps::InITBlock(cpua) && !TItOps::LastInITBlock(cpua)) \x7b",
      .string "  return Err<Instr>(StatusCode::kDecoderUnpredictable); // isn't allowed",
      .string "\x7d"])]⟩)]
  splitters := [("16bit_op01000", ⟨[],
    [("body", .array [.string "/* a comment may have a \x7d */"])]⟩)]
  opcodes := [("01000", ⟨"16bit_op01000", []⟩), ("11100", ⟨"b_t2", []⟩)]

theorem plainNames_branch : PlainNames branchDocument where
  decoders := List.forall_mem_singleton.mpr (isWord_of_all rfl)
  splitters := List.forall_mem_singleton.mpr (isWord_of_all rfl)

theorem enclosed_branch : Enclosed branchDocument ⟨"microemu", 3, "instr.h"⟩ where
  scope := by decide
  instrHeader := by decide
  instructions := by decide +kernel
  members := by decide +kernel
  flags := by decide +kernel
  decoders := by decide +kernel
  splitters := by decide +kernel

/-- A body that ends its function and begins another one with the name of a function above. -/
def reopeningBody : Members :=
  [("body", .array [.string ("\x7d\n\ntemplate <typename TCpuAccessor, typename TItOps>\n" ++
    "static Result<Instr> InvalidInstrDecoder(const RawInstr &rinstr, TCpuAccessor &cpua) \x7b")])]

def reopeningDocument : Document :=
  { Document.empty with splitters := [("s", ⟨[], reopeningBody⟩)] }

def reopeningSplitter : Splitter :=
  .ofEntry "s" ⟨[], reopeningBody⟩

/-- The lines of the splitter are those of two functions. -/
theorem cut_reopening :
    cut ("" :: splitterLines reopeningSplitter) =
      [""] ++ ([templateLine] ++ ([definitionLine "Splitters", line 1 "\x7d"] ++
        ([""] ++ functionLines invalidDecoder [unknownOpcode]))) := by
  have callback : reopeningSplitter.callback = "Splitters" := by decide
  have inner : splitterBody reopeningSplitter =
      bodyLines 1 (bodyOf reopeningBody) ++ [unknownOpcode] := rfl
  have body : cut (bodyLines 1 (bodyOf reopeningBody)) =
      [line 1 "\x7d", "", templateLine, definitionLine invalidDecoder] := by decide +kernel
  have free : ∀ line ∈ ["", templateLine, definitionLine "Splitters", unknownOpcode, "\x7d"],
      '\n' ∉ line.toList := by decide +kernel
  have start : cut ["", templateLine, definitionLine "Splitters"] = _ :=
    cut_of_free fun line member => free line (List.mem_append_left [unknownOpcode, "\x7d"] member)
  have last : cut [unknownOpcode, "\x7d"] = _ := cut_of_free fun line member =>
    free line (List.mem_append_right ["", templateLine, definitionLine "Splitters"] member)
  have split : "" :: splitterLines reopeningSplitter =
      ["", templateLine, definitionLine "Splitters"] ++
        (bodyLines 1 (bodyOf reopeningBody) ++ [unknownOpcode, "\x7d"]) := by
    rw [splitterLines, callback, inner, functionLines, functionHead]
    simp only [List.append_assoc, List.cons_append, List.nil_append]
    rfl
  rw [split, cut_append, cut_append, start, body, last]
  rfl

theorem clauses_reopening :
    Closed ("" :: splitterLines reopeningSplitter) ∧
      (clauses (cut ("" :: splitterLines reopeningSplitter))).map (·.head) =
        [""] ++ (functionHead "Splitters" ++ ([""] ++ functionHead invalidDecoder)) := by
  have name : IsFlat "Splitters" ∧ IsFlat invalidDecoder := by decide
  have blank : Closed [""] := by decide
  have template : Closed [templateLine] := IsFlat.closed (by decide)
  have closing : Moves 1 0 [line 1 "\x7d"] := by decide
  have unknown : Closed [unknownOpcode] := by decide
  have first : Closed [definitionLine "Splitters", line 1 "\x7d"] :=
    (moves_definitionLine name.1).append closing
  have second : Closed (functionLines invalidDecoder [unknownOpcode]) :=
    closed_functionLines name.2 unknown
  constructor
  · rw [Closed, ← moves_cut_iff, cut_reopening]
    exact blank.append (template.append (first.append (blank.append second)))
  · have nothing : Closed [] := moves_nil 0
    have block : clauses [definitionLine "Splitters", line 1 "\x7d"] = _ :=
      clauses_block (moves_definitionLine name.1) nothing
    rw [cut_reopening, clauses_append blank, clauses_append template, clauses_append first,
      clauses_append blank, block, clauses_functionLines name.2 unknown]
    rfl

theorem exists_definedNames_reopening (built : Tables.Built reopeningDocument tables) :
    ∃ rest, definedNames (textOf (decoderHeaderLines tables {})) =
      "InvalidInstrDecoder" :: "Splitters" :: "InvalidInstrDecoder" :: rest := by
  have decoders : tables.decoders = [] := List.map_eq_nil_iff.mp built.decoders.symm
  have splitters : tables.splitters = [reopeningSplitter] := built.splitters
  obtain ⟨closed, heads⟩ := clauses_reopening
  rw [definedNames, scopeLines, clausesOf,
    namespaceLines_decoderHeader tables (by decide) (by decide), namespaceBody, decoders,
    splitters, List.flatMap_nil, List.nil_append, List.flatMap_singleton, clauses_cut_start,
    clauses_cut_append closed, declaredNames_start, List.map_append, heads]
  simp only [declaredNames_append, declaredNames_cons_empty, declaredNames_functionHead,
    List.nil_append, List.cons_append]
  exact ⟨_, rfl⟩

end Header

end DecoderTables
