import DecoderTables.Proofs.Catalog.Fit
import DecoderTables.Proofs.Selector.Resolution
import DecoderTables.Proofs.Tables.Built

/-!
The documents whose tables can be built, said without the stages of the build.
-/

namespace DecoderTables

/-- The name of a decoder or of a splitter. -/
def IsCallee (document : Document) (name : String) : Prop :=
  name ∈ document.decoders.map (·.1) ∨ name ∈ document.splitters.map (·.1)

/-- What a document has to fulfil for its tables to be built. -/
structure Consistent (document : Document) : Prop where
  instructions : InstructionsFit document.instructions
  decoders : DecodersFit document.instructions document.decoders
  splitters : (document.splitters.map (·.1)).Nodup
  apart : CallbacksApart document.decoders document.splitters
  keys : KeysFit document.opcodes
  callees : ∀ entry ∈ document.opcodes, IsCallee document entry.2.decoder

namespace Tables

theorem Built.consistent {document : Document} {tables : Tables} (built : Built document tables) :
    Consistent document := by
  have decoderNames := Decoder.names_eq built.decoders
  have keys : KeysFit document.opcodes :=
    ⟨fun entry member => (Selector.isKey_iff_isKeyText _).mp
      (built.keys _ (List.mem_map_of_mem member)), built.distinctKeys⟩
  have apart := built.apart
  rw [built.splitters] at apart
  have disjoint : ∀ name ∈ tables.splitters.map (·.name), name ∉ tables.decoders.map (·.name) := by
    rw [List.forall_mem_map]
    exact fun splitter member => (built.apart splitter member).1
  refine ⟨?_, ?_, ?_, ?_, keys, ?_⟩
  · rw [← Instruction.distinct_map_ofEntry_iff, ← built.instructions]
    exact built.distinctInstructions
  · exact (Decoder.exists_intake_iff _ _ built.instructionNames_eq _).mp
      ⟨tables.decoders, (Decoder.intake_eq_ok_iff _ _ _).mpr
        ⟨built.decoders, built.distinctDecoders⟩⟩
  · rw [← built.splitterNames_eq]
    exact built.distinctSplitters
  · exact (Splitter.checkApart_eq_ok_iff_apart built.decoders _).mp
      ((Splitter.checkApart_eq_ok_iff _ _).mpr apart)
  · intro entry member
    obtain ⟨index, inside, key⟩ := (Selector.isKey_iff entry.1).mp
      (built.keys _ (List.mem_map_of_mem member))
    have resolved := (exists_map_ok_iff _ _).mp ⟨tables.opcodes, built.opcodes⟩ index
      (List.mem_range.mpr inside)
    rw [Selector.exists_resolve_iff keys disjoint, decoderNames, built.splitterNames_eq]
      at resolved
    exact resolved entry.2 (key ▸ member)

theorem Consistent.exists_built {document : Document} (consistent : Consistent document) :
    ∃ tables, Built document tables := by
  obtain ⟨instructions, first⟩ :=
    (Instruction.exists_intake_iff document.instructions).mpr consistent.instructions
  obtain ⟨rfl, distinctInstructions⟩ := (Instruction.intake_eq_ok_iff _ _).mp first
  obtain ⟨decoders, second⟩ := (Decoder.exists_intake_iff document.instructions _
    (Instruction.names_map_ofEntry _) _).mpr consistent.decoders
  obtain ⟨made, distinctDecoders⟩ := (Decoder.intake_eq_ok_iff _ _ _).mp second
  have apart := (Splitter.checkApart_eq_ok_iff _ _).mp
    ((Splitter.checkApart_eq_ok_iff_apart made _).mpr consistent.apart)
  have disjoint : ∀ name ∈ (document.splitters.map fun entry =>
      Splitter.ofEntry entry.1 entry.2).map (·.name), name ∉ decoders.map (·.name) := by
    rw [List.forall_mem_map]
    exact fun splitter member => (apart splitter member).1
  obtain ⟨opcodes, resolved⟩ := (exists_map_ok_iff (Selector.resolve document.opcodes decoders
    (document.splitters.map fun entry => Splitter.ofEntry entry.1 entry.2))
    (List.range Selector.count)).mpr (by
      intro index _
      rw [Selector.exists_resolve_iff consistent.keys disjoint, Decoder.names_eq made,
        Splitter.names_map_ofEntry]
      exact fun opcode member => consistent.callees _ member)
  refine ⟨⟨opcodes, decoders, _, _⟩, rfl, distinctInstructions, made, distinctDecoders, rfl, ?_,
    apart, ?_, consistent.keys.distinct, resolved⟩
  · rw [Splitter.names_map_ofEntry]
    exact consistent.splitters
  · rw [List.forall_mem_map]
    exact fun entry member => (Selector.isKey_iff_isKeyText _).mpr
      (consistent.keys.digits entry member)

/-- A build succeeds exactly on the consistent documents. -/
theorem exists_build_iff_consistent (document : Document) :
    (∃ tables, build document = .ok tables) ↔ Consistent document := by
  simp only [build_eq_ok_iff]
  exact ⟨fun ⟨_, built⟩ => built.consistent, Consistent.exists_built⟩

end Tables

end DecoderTables
