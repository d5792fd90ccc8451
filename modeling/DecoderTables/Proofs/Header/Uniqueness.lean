import DecoderTables.Proofs.Header.Scope
import DecoderTables.Proofs.Tables.Built

/-!
When the names that the two headers declare are distinct. The build keeps apart most of the names,
but an instruction may take the name of the enumeration, of the union or of a decoder.
-/

namespace DecoderTables
open Identifier

namespace Identifier

theorem structName_eq_instr_iff (name : String) :
    structName name = "Instr" ↔ pascalCase name = "" := by
  have join : "Instr" ++ "" = "Instr" := by decide
  rw [structName, ← join, String.append_assoc, String.append_right_inj, String.empty_append]

theorem structName_eq_instrId_iff (name : String) :
    structName name = "InstrId" ↔ pascalCase name = "Id" := by
  have join : "Instr" ++ "Id" = "InstrId" := by decide
  rw [structName, ← join, String.append_right_inj]

theorem structName_ne_function (name : String) :
    structName name ≠ invalidDecoder ∧ structName name ≠ "call_decoder" := by
  constructor
  · intro same
    have chars := congrArg (fun text => text.toList.take 3) same
    simp [structName, invalidDecoder] at chars
  · intro same
    have chars := congrArg (fun text => text.toList.take 3) same
    simp [structName] at chars

theorem structName_ne_splitterCallback (name other : String) :
    structName name ≠ splitterCallback other := by
  intro same
  have chars := congrArg (fun text => text.toList.head?) same
  simp [structName, splitterCallback] at chars

/-- A callback of a decoder ends with its suffix. -/
theorem decoderCallback_ne (name text : String) (start last : List Char)
    (split : text.toList = start ++ last) (length : last.length = 7)
    (differ : last ≠ "Decoder".toList) : decoderCallback name ≠ text := by
  intro same
  have chars := congrArg String.toList same
  rw [decoderCallback, String.toList_append, split] at chars
  exact differ (List.append_inj_right' chars length.symm).symm

theorem decoderCallback_ne_builtIn (name : String) :
    decoderCallback name ≠ "InstrId" ∧ decoderCallback name ≠ "Instr" ∧
      decoderCallback name ≠ "call_decoder" := by
  refine ⟨decoderCallback_ne name _ [] _ rfl (by decide) (by decide), ?_,
    decoderCallback_ne name _ "call_".toList "decoder".toList (by decide) (by decide) (by decide)⟩
  intro same
  have length := congrArg (fun text => text.toList.length) same
  simp [decoderCallback] at length

theorem splitterCallback_ne_builtIn (name : String) :
    splitterCallback name ≠ "InstrId" ∧ splitterCallback name ≠ "Instr" ∧
      splitterCallback name ≠ invalidDecoder ∧ splitterCallback name ≠ "call_decoder" := by
  have head : (splitterCallback name).toList.head? = some 'S' := by simp [splitterCallback]
  refine ⟨?_, ?_, ?_, ?_⟩
  all_goals
    intro same
    rw [same] at head
    exact absurd head (by decide)

end Identifier

/-- One identifier of each instruction, in the order in which the instructions take them. -/
theorem Instruction.map_sublist_identifiers (choose : Instruction → String)
    (own : ∀ instruction : Instruction, [choose instruction].Sublist instruction.identifiers)
    (instructions : List Instruction) :
    (instructions.map choose).Sublist (instructions.flatMap identifiers) := by
  induction instructions with
  | nil => exact List.Sublist.refl []
  | cons instruction instructions ih =>
    rw [List.map_cons, List.flatMap_cons]
    exact (own instruction).append ih

namespace Tables.Built

variable {document : Document} {tables : Tables}

theorem nodup_structNames (built : Built document tables) :
    (tables.instructions.map (·.structName)).Nodup := by
  have all := (List.nodup_cons.mp built.distinctInstructions.identifiers).2
  have own : ∀ instruction : Instruction,
      [instruction.structName].Sublist instruction.identifiers := by simp [Instruction.identifiers]
  exact List.Nodup.sublist (Instruction.map_sublist_identifiers _ own _) all

/-- No enumerator is declared twice. -/
theorem nodup_enumTags (built : Built document tables) :
    (tables.instructions.map (·.enumTag) ++ ["kInvalid"]).Nodup := by
  have own : ∀ instruction : Instruction,
      [instruction.enumTag].Sublist instruction.identifiers := by simp [Instruction.identifiers]
  rw [List.nodup_append_comm, List.singleton_append]
  apply List.Nodup.sublist _ built.distinctInstructions.identifiers
  apply List.Sublist.cons_cons
  exact Instruction.map_sublist_identifiers _ own _

theorem nodup_splitterCallbacks (built : Built document tables) :
    (tables.splitters.map (·.callback)).Nodup := by
  rw [built.splitterCallbacks_eq]
  exact built.distinctSplitters.map fun first second same =>
    (String.append_right_inj "Splitter").mp same

/-- The functions of the decoder header never share a name. -/
theorem nodup_functions (built : Built document tables) :
    (invalidDecoder :: tables.decoders.map (·.callback) ++ tables.splitters.map (·.callback) ++
      ["call_decoder"]).Nodup := by
  have splitters : ∀ callback ∈ tables.splitters.map (·.callback),
      callback ≠ invalidDecoder ∧ callback ≠ "call_decoder" := by
    rw [built.splitterCallbacks_eq, List.forall_mem_map]
    intro name _
    exact (splitterCallback_ne_builtIn name).2.2
  have decoders : ∀ callback ∈ tables.decoders.map (·.callback), callback ≠ "call_decoder" := by
    rw [built.decoderCallbacks_eq, List.forall_mem_map]
    intro name _
    exact (decoderCallback_ne_builtIn name).2.2
  have apart : ∀ callback ∈ tables.splitters.map (·.callback),
      callback ∉ tables.decoders.map (·.callback) := by
    rw [List.forall_mem_map]
    intro splitter member
    exact (built.apart splitter member).2
  have callbacks : (invalidDecoder :: tables.decoders.map (·.callback) ++
      tables.splitters.map (·.callback)).Nodup := by
    apply built.distinctDecoders.callbacks.append built.nodup_splitterCallbacks
    intro callback first second
    rcases List.mem_cons.mp first with rfl | decoder
    · exact (splitters _ second).1 rfl
    · exact apart callback second decoder
  apply callbacks.append (List.nodup_singleton _)
  intro callback first second
  obtain rfl := List.mem_singleton.mp second
  rcases List.mem_append.mp first with early | splitter
  · rcases List.mem_cons.mp early with same | decoder
    · exact absurd same (by decide)
    · exact decoders _ decoder rfl
  · exact (splitters _ splitter).2 rfl

end Tables.Built

namespace Header

/-- The names of both headers in their namespace. -/
def scopeNames (tables : Tables) (options : HeaderOptions) : List String :=
  declaredNames (instructionLines tables options) ++
    declaredNames (decoderHeaderLines tables options)

/-- The instructions of a document stay clear of what else the headers declare: of the union, of
the enumeration, and of the callbacks of decoders. -/
structure Clear (document : Document) : Prop where
  union : ∀ name ∈ document.instructions.map (·.1), pascalCase name ≠ ""
  enumeration : ∀ name ∈ document.instructions.map (·.1), pascalCase name ≠ "Id"
  decoders : ∀ name ∈ document.instructions.map (·.1), ∀ other ∈ document.decoders.map (·.1),
    structName name ≠ decoderCallback other

variable {document : Document} {tables : Tables}

theorem forall_structName_iff (built : Tables.Built document tables) (holds : String → Prop) :
    (∀ name ∈ tables.instructions.map (·.structName), holds name) ↔
      ∀ name ∈ document.instructions.map (·.1), holds (structName name) := by
  rw [built.structNames_eq, List.forall_mem_map]

/-- The types of the instruction header are distinct unless an instruction takes the name of the
union or of the enumeration. -/
theorem nodup_types_iff (built : Tables.Built document tables) :
    ("InstrId" :: tables.instructions.map (·.structName) ++ ["Instr"]).Nodup ↔
      (∀ name ∈ document.instructions.map (·.1), pascalCase name ≠ "") ∧
        ∀ name ∈ document.instructions.map (·.1), pascalCase name ≠ "Id" := by
  have builtIn : "Instr" ≠ "InstrId" := by decide
  have union := forall_structName_iff built (· ≠ "Instr")
  have enumeration := forall_structName_iff built (· ≠ "InstrId")
  simp only [ne_eq, structName_eq_instr_iff, structName_eq_instrId_iff] at union enumeration
  simp only [ne_eq, ← union, ← enumeration, List.forall_mem_ne']
  rw [List.nodup_append_comm, List.singleton_append, List.nodup_cons, List.nodup_cons,
    List.mem_cons, not_or]
  exact ⟨fun ⟨⟨_, first⟩, second, _⟩ => ⟨first, second⟩,
    fun ⟨first, second⟩ => ⟨⟨builtIn, first⟩, second, built.nodup_structNames⟩⟩

theorem not_mem_types {names : List String} {text : String} (enumeration : text ≠ "InstrId")
    (union : text ≠ "Instr") (structs : ∀ name ∈ names, structName name ≠ text) :
    text ∉ "InstrId" :: names.map structName ++ ["Instr"] := by
  intro type
  rcases List.mem_append.mp type with early | last
  · rcases List.mem_cons.mp early with same | struct
    · exact enumeration same
    · obtain ⟨name, known, same⟩ := List.mem_map.mp struct
      exact structs name known same
  · exact union (List.mem_singleton.mp last)

/-- A type of the instruction header and a function of the decoder header can only meet where an
instruction has the name of the callback of a decoder. -/
theorem disjoint_types_functions_iff (built : Tables.Built document tables) :
    List.Disjoint ("InstrId" :: tables.instructions.map (·.structName) ++ ["Instr"])
        (invalidDecoder :: tables.decoders.map (·.callback) ++
          tables.splitters.map (·.callback) ++ ["call_decoder"]) ↔
      ∀ name ∈ document.instructions.map (·.1), ∀ other ∈ document.decoders.map (·.1),
        structName name ≠ decoderCallback other := by
  rw [built.structNames_eq, built.decoderCallbacks_eq, built.splitterCallbacks_eq]
  apply Iff.intro
  · intro disjoint name known other decoder same
    have type := List.mem_map_of_mem (f := structName) known
    have function := List.mem_map_of_mem (f := decoderCallback) decoder
    rw [← same] at function
    apply disjoint (a := structName name)
    · exact List.mem_append_left _ (List.mem_cons_of_mem _ type)
    · exact List.mem_append_left _ (List.mem_append_left _ (List.mem_cons_of_mem _ function))
  · intro clear text type function
    rcases List.mem_append.mp function with function | last
    · rcases List.mem_append.mp function with function | splitter
      · rcases List.mem_cons.mp function with rfl | decoder
        · exact not_mem_types (by decide) (by decide)
            (fun name _ => (structName_ne_function name).1) type
        · obtain ⟨other, member, rfl⟩ := List.mem_map.mp decoder
          have builtIn := decoderCallback_ne_builtIn other
          exact not_mem_types builtIn.1 builtIn.2.1
            (fun name known => clear name known other member) type
      · obtain ⟨other, _, rfl⟩ := List.mem_map.mp splitter
        have builtIn := splitterCallback_ne_builtIn other
        exact not_mem_types builtIn.1 builtIn.2.1
          (fun name _ => structName_ne_splitterCallback name other) type
    · obtain rfl := List.mem_singleton.mp last
      exact not_mem_types (by decide) (by decide)
        (fun name _ => (structName_ne_function name).2) type

/-- After a build the enumerators are distinct, and the headers declare no type or function twice
exactly when the instructions stay clear of everything else that they declare. -/
theorem nodup_scopeNames_iff_clear (built : Tables.build document = .ok tables)
    (options : HeaderOptions) :
    enumerators (instructionLines tables options) =
        tables.instructions.map (·.enumTag) ++ ["kInvalid"] ∧
      (enumerators (instructionLines tables options)).Nodup ∧
      scopeNames tables options =
        ("InstrId" :: tables.instructions.map (·.structName) ++ ["Instr"]) ++
          ("InvalidInstrDecoder" :: tables.decoders.map (·.callback) ++
            tables.splitters.map (·.callback) ++ ["call_decoder"]) ∧
      ((scopeNames tables options).Nodup ↔ Clear document) := by
  have parts := (Tables.build_eq_ok_iff document tables).mp built
  have types := declaredNames_instructionLines tables options
  have functions := declaredNames_decoderHeaderLines tables options
  have names : scopeNames tables options = _ ++ _ := congrArg₂ (· ++ ·) types functions
  have enumeration := enumerators_instructionLines tables options
  refine ⟨enumeration, ?_, names, ?_⟩
  · rw [enumeration]
    exact parts.nodup_enumTags
  -- the functions are distinct in any case, and of the types only the structs can meet others
  · rw [names, List.nodup_append', nodup_types_iff parts, disjoint_types_functions_iff parts]
    apply Iff.intro
    · intro given
      obtain ⟨⟨union, enumeration⟩, _, decoders⟩ := given
      exact ⟨union, enumeration, decoders⟩
    · intro clear
      exact ⟨⟨clear.union, clear.enumeration⟩, parts.nodup_functions, clear.decoders⟩

theorem sampleDocument_clear : Clear Tables.sampleDocument :=
  ⟨by decide, by decide, by decide⟩

theorem nodup_scopeNames_sample :
    ∃ tables, Tables.build Tables.sampleDocument = .ok tables ∧
      (enumerators (instructionLines tables {})).Nodup ∧ (scopeNames tables {}).Nodup := by
  obtain ⟨tables, built⟩ := Tables.exists_build_sample
  obtain ⟨_, enumeration, _, names⟩ := nodup_scopeNames_iff_clear built {}
  exact ⟨tables, built, enumeration, names.mpr sampleDocument_clear⟩

/-- An instruction whose struct has the name of the enumeration. -/
def clashingDocument : Document :=
  { Document.empty with instructions := [("id", [])] }

theorem exists_repeated_scopeName :
    ¬∀ document tables options, Tables.build document = .ok tables →
      (enumerators (instructionLines tables options)).Nodup ∧
        (scopeNames tables options).Nodup := by
  intro distinct
  obtain ⟨tables, built⟩ : ∃ tables, Tables.build clashingDocument = .ok tables :=
    exists_ok_of_isOk (by decide)
  have names := (distinct clashingDocument tables {} built).2
  have parts := (Tables.build_eq_ok_iff _ tables).mp built
  rw [scopeNames, declaredNames_instructionLines] at names
  have types := ((nodup_types_iff parts).mp (List.nodup_append'.mp names).1).2
  exact types "id" (by decide) (by decide)

end Header

end DecoderTables
