import DecoderTables.Proofs.Catalog.Faults
import DecoderTables.Proofs.Tables.Consistency

/-!
Which fault a build reports. The stages follow one another, so the report is the earliest fault in
their order, and within a stage that of the first entry at which the stage stops.
-/

namespace DecoderTables
open Json

namespace Tables

/-- What the first three stages of a build make of a document. -/
structure Catalogs (document : Document) (instructions : List Instruction)
    (decoders : List Decoder) (splitters : List Splitter) : Prop where
  instructionStage : (Instruction.intake document.instructions).result = .ok instructions
  decoderStage : (Decoder.intake instructions document.decoders).result = .ok decoders
  splitterStage : (Splitter.intake document.splitters).result = .ok splitters

/-- The least selector value whose opcode refers to no decoder and no splitter. -/
structure FirstUnknown (document : Document) (index : Nat) (opcode : OpcodeEntry) : Prop where
  inside : index < 32
  member : (Selector.binary index, opcode) ∈ document.opcodes
  unknown : ¬IsCallee document opcode.decoder
  least : ∀ smaller < index, ∀ other, (Selector.binary smaller, other) ∈ document.opcodes →
    IsCallee document other.decoder

/-- The earliest thing that is wrong with a document: the stages before pass, and the stage that
reports it stops at its first faulty entry. -/
inductive EarliestFault (document : Document) : BuildError → Prop
  | instruction {before after : Section Members} {entry : String × Members} {fault : BuildError}
      (split : document.instructions = before ++ entry :: after)
      (stop : StopsAt (fun entries => (Instruction.intake entries).result) before entry fault)
      (cause : Instruction.Fault before entry.1 fault) : EarliestFault document fault
  | decoder {instructions : List Instruction} {before after : Section DecoderEntry}
      {entry : String × DecoderEntry} {fault : BuildError}
      (first : (Instruction.intake document.instructions).result = .ok instructions)
      (split : document.decoders = before ++ entry :: after)
      (stop : StopsAt (fun entries => (Decoder.intake instructions entries).result) before entry
        fault)
      (cause : Decoder.Fault document.instructions before entry.1 entry.2 fault) :
      EarliestFault document fault
  | splitter {instructions : List Instruction} {decoders : List Decoder}
      {before after : Section SplitterEntry} {entry : String × SplitterEntry}
      (first : (Instruction.intake document.instructions).result = .ok instructions)
      (second : (Decoder.intake instructions document.decoders).result = .ok decoders)
      (split : document.splitters = before ++ entry :: after)
      (stop : StopsAt (fun entries => (Splitter.intake entries).result) before entry
        (.repeatedSplitter entry.1))
      (repeated : entry.1 ∈ before.map (·.1)) :
      EarliestFault document (.repeatedSplitter entry.1)
  | clash {instructions : List Instruction} {decoders : List Decoder} {splitters : List Splitter}
      {before after : Section SplitterEntry} {entry : String × SplitterEntry} {fault : BuildError}
      (catalogs : Catalogs document instructions decoders splitters)
      (split : document.splitters = before ++ entry :: after)
      (stop : StopsAt (Splitter.apart decoders) before entry fault)
      (cause : Splitter.Clash document.decoders entry.1 fault) : EarliestFault document fault
  | key {instructions : List Instruction} {decoders : List Decoder} {splitters : List Splitter}
      {before after : List String} {key : String} {fault : BuildError}
      (catalogs : Catalogs document instructions decoders splitters)
      (apart : Splitter.apart decoders document.splitters = .ok ())
      (split : document.opcodes.map (·.1) = before ++ key :: after)
      (stop : StopsAt (Selector.checkKeys []) before key fault)
      (cause : Selector.KeyFault before key fault) : EarliestFault document fault
  | callee {instructions : List Instruction} {decoders : List Decoder} {splitters : List Splitter}
      {index : Nat} {opcode : OpcodeEntry}
      (catalogs : Catalogs document instructions decoders splitters)
      (apart : Splitter.apart decoders document.splitters = .ok ())
      (keys : KeysFit document.opcodes) (first : FirstUnknown document index opcode) :
      EarliestFault document (.unknownCallback (Selector.binary index) opcode.decoder)

variable {document : Document} {instructions : List Instruction} {decoders : List Decoder}
  {splitters : List Splitter} {opcodes : Section OpcodeEntry} {fault : BuildError}

theorem build_of_catalogs (catalogs : Catalogs document instructions decoders splitters) :
    build document = do
      Splitter.apart decoders document.splitters
      let opcodes ← Selector.table document.opcodes decoders splitters
      return { opcodes, decoders, splitters, instructions } := by
  obtain ⟨made, _⟩ := (Splitter.intake_eq_ok_iff _ _).mp catalogs.splitterStage
  rw [Splitter.apart, ← made]
  unfold build
  rw [catalogs.instructionStage]
  change (Decoder.intake instructions document.decoders).result >>= _ = _
  rw [catalogs.decoderStage]
  change (Splitter.intake document.splitters).result >>= _ = _
  rw [catalogs.splitterStage]
  rfl

namespace Catalogs

theorem decoders_map (catalogs : Catalogs document instructions decoders splitters) :
    document.decoders.map (fun entry => Decoder.ofEntry instructions entry.1 entry.2) =
      decoders.map .ok :=
  ((Decoder.intake_eq_ok_iff _ _ _).mp catalogs.decoderStage).1

theorem splitter_names (catalogs : Catalogs document instructions decoders splitters) :
    splitters.map (·.name) = document.splitters.map (·.1) := by
  rw [((Splitter.intake_eq_ok_iff _ _).mp catalogs.splitterStage).1, Splitter.names_map_ofEntry]

/-- After the check of decoders against splitters, only an unknown name is left to be reported. -/
theorem intake_eq_error_iff (catalogs : Catalogs document instructions decoders splitters)
    (apart : Splitter.apart decoders document.splitters = .ok ())
    (keys : KeysFit document.opcodes) (fault : BuildError) :
    (Selector.intake document.opcodes decoders splitters).result = .error fault ↔
      ∃ index opcode, FirstUnknown document index opcode ∧
        fault = .unknownCallback (Selector.binary index) opcode.decoder := by
  have decoderNames := Decoder.names_eq catalogs.decoders_map
  have splitterNames := catalogs.splitter_names
  have disjoint : ∀ name ∈ splitters.map (·.name), name ∉ decoders.map (·.name) := by
    rw [splitterNames, decoderNames, List.forall_mem_map]
    exact ((Splitter.checkApart_eq_ok_iff_apart catalogs.decoders_map _).mp apart).names
  simp only [Selector.intake_eq_error_iff, Selector.resolve_eq_error_iff_unknown keys disjoint,
    Selector.exists_resolve_iff keys disjoint, decoderNames, splitterNames]
  apply Iff.intro
  · intro given
    obtain ⟨index, inside, ⟨opcode, member, decoder, splitter, same⟩, least⟩ := given
    exact ⟨index, opcode, ⟨inside, member, not_or.mpr ⟨decoder, splitter⟩, least⟩, same⟩
  · intro given
    obtain ⟨index, opcode, first, same⟩ := given
    obtain ⟨decoder, splitter⟩ := not_or.mp first.unknown
    exact ⟨index, first.inside, ⟨opcode, first.member, decoder, splitter, same⟩, first.least⟩

end Catalogs

theorem earliestFault_of_build (stopped : build document = .error fault) :
    EarliestFault document fault := by
  obtain stopped | ⟨instructions, first, rest⟩ := (bind_eq_error_iff _ _ _).mp stopped
  · obtain ⟨before, entry, after, split, stop⟩ :=
      ((sequential_takeIn _).eq_error_iff _ _).mp stopped
    exact .instruction split stop (Instruction.fault_of_stopsAt stop)
  obtain ⟨made, _⟩ := (Instruction.intake_eq_ok_iff _ _).mp first
  obtain stopped | ⟨decoders, second, rest⟩ := (bind_eq_error_iff _ _ _).mp rest
  · obtain ⟨before, entry, after, split, stop⟩ :=
      ((sequential_takeIn _).eq_error_iff _ _).mp stopped
    have names : instructions.map (·.name) = document.instructions.map (·.1) := by
      rw [made, Instruction.names_map_ofEntry]
    exact .decoder first split stop (Decoder.fault_of_stopsAt names stop)
  obtain stopped | ⟨splitters, third, rest⟩ := (bind_eq_error_iff _ _ _).mp rest
  · obtain ⟨before, entry, after, split, stop⟩ :=
      ((sequential_takeIn _).eq_error_iff _ _).mp stopped
    obtain ⟨repeated, rfl⟩ := Splitter.fault_of_stopsAt stop
    exact .splitter first second split stop repeated
  have catalogs : Catalogs document instructions decoders splitters := ⟨first, second, third⟩
  rw [build_of_catalogs catalogs] at stopped
  obtain stopped | ⟨⟨⟩, apart, rest⟩ := (bind_eq_error_iff _ _ _).mp stopped
  · obtain ⟨before, entry, after, split, stop⟩ :=
      ((Splitter.sequential_apart decoders).eq_error_iff _ _).mp stopped
    exact .clash catalogs split stop (Splitter.clash_of_stopsAt catalogs.decoders_map stop)
  obtain stopped | ⟨opcodes, done, rest⟩ := (bind_eq_error_iff _ _ _).mp rest
  · obtain stopped | ⟨⟨⟩, keys, stopped⟩ := (bind_eq_error_iff _ _ _).mp stopped
    · obtain ⟨before, key, after, split, stop⟩ :=
        ((Selector.sequential_checkKeys []).eq_error_iff _ _).mp stopped
      exact .key catalogs apart split stop (Selector.keyFault_of_stopsAt stop)
    · have fit := (Selector.checkKeys_eq_ok_iff_fit _).mp keys
      obtain ⟨index, opcode, unknown, rfl⟩ :=
        (catalogs.intake_eq_error_iff apart fit _).mp stopped
      exact .callee catalogs apart fit unknown
  · cases rest

theorem build_of_earliestFault (earliest : EarliestFault document fault) :
    build document = .error fault := by
  cases earliest with
  | instruction split stop _ =>
    have stopped := stop.fails split
    exact (bind_eq_error_iff _ _ _).mpr (Or.inl stopped)
  | decoder first split stop _ =>
    have stopped := stop.fails split
    refine (bind_eq_error_iff _ _ _).mpr (Or.inr ⟨_, first, ?_⟩)
    exact (bind_eq_error_iff _ _ _).mpr (Or.inl stopped)
  | splitter first second split stop _ =>
    have stopped := stop.fails split
    refine (bind_eq_error_iff _ _ _).mpr (Or.inr ⟨_, first, ?_⟩)
    refine (bind_eq_error_iff _ _ _).mpr (Or.inr ⟨_, second, ?_⟩)
    exact (bind_eq_error_iff _ _ _).mpr (Or.inl stopped)
  | clash catalogs split stop _ =>
    have stopped := stop.fails split
    rw [build_of_catalogs catalogs, stopped]
    rfl
  | key catalogs apart split stop _ =>
    have stopped := stop.fails split
    rw [build_of_catalogs catalogs, apart]
    refine (bind_eq_error_iff _ _ _).mpr (Or.inr ⟨(), rfl, ?_⟩)
    refine (bind_eq_error_iff _ _ _).mpr (Or.inl ?_)
    exact (bind_eq_error_iff _ _ _).mpr (Or.inl stopped)
  | callee catalogs apart keys first =>
    have stopped := (catalogs.intake_eq_error_iff apart keys _).mpr ⟨_, _, first, rfl⟩
    rw [build_of_catalogs catalogs, apart]
    refine (bind_eq_error_iff _ _ _).mpr (Or.inr ⟨(), rfl, ?_⟩)
    refine (bind_eq_error_iff _ _ _).mpr (Or.inl ?_)
    refine (bind_eq_error_iff _ _ _).mpr (Or.inr ⟨(), ?_, stopped⟩)
    exact (Selector.checkKeys_eq_ok_iff_fit _).mpr keys

theorem EarliestFault.of_perm (earliest : EarliestFault document fault)
    (keys : KeysFit document.opcodes) (perm : opcodes.Perm document.opcodes) :
    EarliestFault { document with opcodes } fault := by
  cases earliest with
  | instruction split stop cause => exact .instruction split stop cause
  | decoder first split stop cause => exact .decoder first split stop cause
  | splitter first second split stop repeated =>
    exact .splitter first second split stop repeated
  | clash catalogs split stop cause =>
    exact .clash ⟨catalogs.1, catalogs.2, catalogs.3⟩ split stop cause
  | key catalogs apart split stop cause =>
    have passed := (Selector.checkKeys_eq_ok_iff_fit _).mpr keys
    rw [stop.fails split] at passed
    cases passed
  | callee catalogs apart _ first =>
    refine .callee ⟨catalogs.1, catalogs.2, catalogs.3⟩ apart (keys.of_perm perm) ?_
    exact ⟨first.inside, perm.mem_iff.mpr first.member, first.unknown,
      fun smaller less other member => first.least smaller less other (perm.mem_iff.mp member)⟩

theorem Catalogs.build_ne_ambiguous (catalogs : Catalogs document instructions decoders splitters)
    (apart : Splitter.apart decoders document.splitters = .ok ()) (name : String) :
    build document ≠ .error (.ambiguousCallback name) := by
  intro stopped
  cases earliestFault_of_build stopped with
  | instruction _ _ cause => cases cause
  | decoder _ _ _ cause => cases cause
  | clash others split stop _ =>
    have first := others.instructionStage
    rw [catalogs.instructionStage] at first
    cases first
    have second := others.decoderStage
    rw [catalogs.decoderStage] at second
    cases second
    have clash := stop.fails split
    rw [apart] at clash
    cases clash
  | key _ _ _ _ cause => cases cause

/-- A build that fails reports the earliest fault of the document. The order of well-formed and
distinct opcodes does not change the report, and once decoders and splitters are kept apart no name
is reported as ambiguous. -/
theorem build_eq_error_iff_earliestFault (document : Document) (fault : BuildError) :
    (build document = .error fault ↔ EarliestFault document fault) ∧
      (KeysFit document.opcodes → ∀ opcodes, opcodes.Perm document.opcodes →
        (build { document with opcodes } = .error fault ↔ build document = .error fault)) ∧
      ∀ instructions decoders splitters, Catalogs document instructions decoders splitters →
        Splitter.apart decoders document.splitters = .ok () →
          ∀ name, build document ≠ .error (.ambiguousCallback name) := by
  refine ⟨⟨earliestFault_of_build, build_of_earliestFault⟩, ?_, ?_⟩
  · intro keys opcodes perm
    apply Iff.intro
    · intro stopped
      have back := (earliestFault_of_build stopped).of_perm (keys.of_perm perm) perm.symm
      exact build_of_earliestFault back
    · intro stopped
      exact build_of_earliestFault ((earliestFault_of_build stopped).of_perm keys perm)
  · exact fun _ _ _ catalogs apart name => catalogs.build_ne_ambiguous apart name

/-- Two opcodes that refer to nothing, the one of the lesser value behind the other. -/
def unknownDocument : Document :=
  { Document.empty with opcodes := [("00010", ⟨"second", []⟩), ("00001", ⟨"first", []⟩)] }

theorem build_eq_error_iff_earliestFault_sample :
    EarliestFault unknownDocument (.unknownCallback "00001" "first") ∧
      KeysFit unknownDocument.opcodes ∧
      build { unknownDocument with opcodes := unknownDocument.opcodes.reverse } =
        .error (.unknownCallback "00001" "first") ∧
      Catalogs unknownDocument [] [] [] ∧ Splitter.apart [] unknownDocument.splitters = .ok () ∧
      build unknownDocument ≠ .error (.ambiguousCallback "first") := by
  obtain ⟨earliest, reordered, clear⟩ :=
    build_eq_error_iff_earliestFault unknownDocument (.unknownCallback "00001" "first")
  have keys : KeysFit unknownDocument.opcodes := (Selector.checkKeys_eq_ok_iff_fit _).mp rfl
  have catalogs : Catalogs unknownDocument [] [] [] := ⟨rfl, rfl, rfl⟩
  have stopped : build unknownDocument = .error (.unknownCallback "00001" "first") := rfl
  exact ⟨earliest.mp stopped, keys, (reordered keys _ (List.reverse_perm _)).mpr stopped, catalogs,
    rfl, clear _ _ _ catalogs rfl _⟩

end Tables

end DecoderTables
