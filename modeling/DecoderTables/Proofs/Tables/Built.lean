import DecoderTables.Proofs.Selector.Keys
import DecoderTables.Tables

/-!
When a build succeeds, said without its loops. Statements about tables start from here and do not
open the stages of the build.
-/

namespace DecoderTables
open Json

namespace Tables

/-- What the stages of a build agree on when none of them refuses anything. -/
structure Built (document : Document) (tables : Tables) : Prop where
  instructions : tables.instructions =
    document.instructions.map fun entry => Instruction.ofEntry entry.1 entry.2
  distinctInstructions : Instruction.Distinct tables.instructions
  decoders : document.decoders.map
    (fun entry => Decoder.ofEntry tables.instructions entry.1 entry.2) = tables.decoders.map .ok
  distinctDecoders : Decoder.Distinct tables.decoders
  splitters : tables.splitters =
    document.splitters.map fun entry => Splitter.ofEntry entry.1 entry.2
  distinctSplitters : (tables.splitters.map (·.name)).Nodup
  apart : ∀ splitter ∈ tables.splitters, splitter.name ∉ tables.decoders.map (·.name) ∧
    splitter.callback ∉ tables.decoders.map (·.callback)
  keys : ∀ key ∈ document.opcodes.map (·.1), Selector.isKey key = true
  distinctKeys : (document.opcodes.map (·.1)).Nodup
  opcodes : (List.range Selector.count).map
    (Selector.resolve document.opcodes tables.decoders tables.splitters) = tables.opcodes.map .ok

theorem table_eq_ok_iff (opcodes : Section OpcodeEntry) (decoders : List Decoder)
    (splitters : List Splitter) (entries : List SelectorEntry) :
    Selector.table opcodes decoders splitters = .ok entries ↔
      ((∀ key ∈ opcodes.map (·.1), Selector.isKey key = true) ∧ (opcodes.map (·.1)).Nodup) ∧
        (List.range Selector.count).map (Selector.resolve opcodes decoders splitters) =
          entries.map .ok := by
  unfold Selector.table
  rw [bind_eq_ok_iff]
  have checked := Selector.checkKeys_eq_ok_iff [] (opcodes.map (·.1))
  simp only [List.not_mem_nil, not_false_eq_true, implies_true, and_true] at checked
  apply Iff.intro
  · intro given
    obtain ⟨⟨⟩, valid, done⟩ := given
    exact ⟨checked.mp valid, (Selector.intake_eq_ok_iff _ _ _ _).mp done⟩
  · intro given
    obtain ⟨valid, done⟩ := given
    exact ⟨(), checked.mpr valid, (Selector.intake_eq_ok_iff _ _ _ _).mpr done⟩

theorem build_eq_ok_iff (document : Document) (tables : Tables) :
    build document = .ok tables ↔ Built document tables := by
  unfold build
  simp only [bind_eq_ok_iff, Instruction.intake_eq_ok_iff, Decoder.intake_eq_ok_iff,
    Splitter.intake_eq_ok_iff, table_eq_ok_iff]
  apply Iff.intro
  · intro given
    obtain ⟨instructions, first, decoders, second, splitters, third, ⟨⟩, fourth, opcodes, fifth,
      done⟩ := given
    cases done
    have apart := (Splitter.checkApart_eq_ok_iff decoders splitters).mp fourth
    exact ⟨first.1, first.2, second.1, second.2, third.1, third.2, apart, fifth.1.1, fifth.1.2,
      fifth.2⟩
  · intro built
    have apart := (Splitter.checkApart_eq_ok_iff _ _).mpr built.apart
    exact ⟨tables.instructions, ⟨built.instructions, built.distinctInstructions⟩,
      tables.decoders, ⟨built.decoders, built.distinctDecoders⟩,
      tables.splitters, ⟨built.splitters, built.distinctSplitters⟩, (), apart,
      tables.opcodes, ⟨⟨built.keys, built.distinctKeys⟩, built.opcodes⟩, rfl⟩

namespace Built

variable {document : Document} {tables : Tables}

theorem instructionNames_eq (built : Built document tables) :
    tables.instructions.map (·.name) = document.instructions.map (·.1) := by
  rw [built.instructions, Instruction.names_map_ofEntry]

theorem splitterNames_eq (built : Built document tables) :
    tables.splitters.map (·.name) = document.splitters.map (·.1) := by
  rw [built.splitters, Splitter.names_map_ofEntry]

theorem decoderCallbacks_eq (built : Built document tables) :
    tables.decoders.map (·.callback) =
      (document.decoders.map (·.1)).map Identifier.decoderCallback := by
  rw [List.map_map]
  exact Decoder.callbacks_eq built.decoders

theorem structNames_eq (built : Built document tables) :
    tables.instructions.map (·.structName) =
      (document.instructions.map (·.1)).map Identifier.structName := by
  rw [built.instructions, List.map_map, List.map_map]
  rfl

theorem splitterCallbacks_eq (built : Built document tables) :
    tables.splitters.map (·.callback) =
      (tables.splitters.map (·.name)).map Identifier.splitterCallback := by
  rw [built.splitters, List.map_map, List.map_map, List.map_map]
  rfl

end Built

/-- A document with an entry in each section. -/
def sampleDocument : Document where
  instructions := [("mov_reg", [])]
  decoders := [("mov_reg_t1", ⟨"mov_reg", ["b", "a"], some ⟨"01000110xxxxxxxx", none⟩, []⟩)]
  splitters := [("16bit_op01000", ⟨["s"], []⟩)]
  opcodes := [("01000", ⟨"16bit_op01000", []⟩), ("00000", ⟨"mov_reg_t1", []⟩)]

theorem exists_build_sample : ∃ tables, build sampleDocument = .ok tables :=
  exists_ok_of_isOk (by decide +kernel)

end Tables

end DecoderTables
