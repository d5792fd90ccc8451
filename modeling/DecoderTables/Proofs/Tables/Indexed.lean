import DecoderTables.Proofs.Catalog.Filling
import DecoderTables.Proofs.Tables.Built
import DecoderTables.Tables.Indexed

/-!
A build with indices gives the tables of a build without, each catalog with the index of its items,
or ends with the same fault. No look-up on the way leads out of a catalog.
-/

namespace DecoderTables
open Json

namespace Splitter

theorem checkApartFrom_ofItems (decoders : List Decoder) (splitters : List Splitter) :
    checkApartFrom (.ofItems (·.name) decoders) splitters = checkApart decoders splitters := by
  induction splitters with
  | nil => rfl
  | cons splitter splitters ih =>
    have shared : (Catalog.ofItems (·.name) decoders).contains splitter.name =
        (Decoder.find? decoders splitter.name).isSome := by
      rw [Catalog.contains_ofItems, Bool.eq_iff_iff, decide_eq_true_eq]
      exact (isSome_find?_name Decoder.name decoders splitter.name).symm
    rw [checkApartFrom, checkApart, shared, ih, Catalog.items_ofItems]

end Splitter

namespace Selector

theorem resolve_eq_entryOf {opcodes : Section OpcodeEntry} {index : Nat} {opcode : OpcodeEntry}
    (named : opcodes.reverse.lookup (binary index) = some opcode) (decoders : List Decoder)
    (splitters : List Splitter) :
    resolve opcodes decoders splitters index = entryOf index opcode
      (Decoder.find? decoders opcode.decoder) (Splitter.find? splitters opcode.decoder) := by
  rw [resolve, named]
  dsimp only
  cases Decoder.find? decoders opcode.decoder with
  | none => cases Splitter.find? splitters opcode.decoder <;> rfl
  | some decoder => cases Splitter.find? splitters opcode.decoder <;> rfl

variable {decoders : List Decoder} {splitters : List Splitter}

theorem resolveIn_ofItems (opcodes : Section OpcodeEntry)
    (decoderNames : (decoders.map (·.name)).Nodup) (splitterNames : (splitters.map (·.name)).Nodup)
    (index : Nat) :
    resolveIn opcodes (.ofItems (·.name) decoders) (.ofItems (·.name) splitters) index =
      (resolve opcodes decoders splitters index).mapError .refused := by
  unfold resolveIn
  cases named : opcodes.reverse.lookup (binary index) with
  | none =>
    rw [resolve, named]
    rfl
  | some opcode =>
    rw [resolve_eq_entryOf named]
    dsimp only
    rw [Catalog.get_ofItems _ _ decoderNames, Catalog.get_ofItems _ _ splitterNames]
    rfl

/-- Judging each entry for itself is an intake that does not look at what it has accepted. -/
theorem mapM_eq_takeIn {α ε : Type} (judge : ε → Except BuildError α) (before : List α)
    (entries : List ε) :
    (entries.mapM fun entry => (judge entry).mapError Stop.refused).map (before ++ ·) =
      (takeIn (fun _ entry => judge entry) before entries).result.mapError .refused := by
  induction entries generalizing before with
  | nil =>
    rw [List.mapM_nil]
    exact congrArg Except.ok (List.append_nil before)
  | cons entry entries ih =>
    rw [List.mapM_cons, takeIn]
    cases judge entry with
    | error fault => rfl
    | ok item =>
      rw [← ih (before ++ [item])]
      change Except.map _ ((entries.mapM fun entry => (judge entry).mapError Stop.refused) >>=
        fun items => .ok (item :: items)) = _
      cases entries.mapM fun entry => (judge entry).mapError Stop.refused with
      | error stop => rfl
      | ok items => exact congrArg Except.ok (List.append_cons before item items)

theorem tableIn_ofItems (opcodes : Section OpcodeEntry)
    (decoderNames : (decoders.map (·.name)).Nodup)
    (splitterNames : (splitters.map (·.name)).Nodup) :
    tableIn opcodes (.ofItems (·.name) decoders) (.ofItems (·.name) splitters) =
      (table opcodes decoders splitters).mapError .refused := by
  have values := mapM_eq_takeIn (resolve opcodes decoders splitters) [] (List.range count)
  have same : resolveIn opcodes (.ofItems (·.name) decoders) (.ofItems (·.name) splitters) =
      fun index => (resolve opcodes decoders splitters index).mapError .refused :=
    funext (resolveIn_ofItems opcodes decoderNames splitterNames)
  unfold tableIn table
  rw [same]
  cases checkKeys [] (opcodes.map (·.1)) with
  | error fault => rfl
  | ok _ =>
    refine Eq.trans ?_ values
    generalize (List.range count).mapM
      (fun index => (resolve opcodes decoders splitters index).mapError Stop.refused) = entries
    cases entries <;> rfl

end Selector

namespace IndexedTables

/-- The tables with the index of each catalog. -/
def ofTables (tables : Tables) : IndexedTables where
  opcodes := tables.opcodes
  decoders := .ofItems (·.name) tables.decoders
  splitters := .ofItems (·.name) tables.splitters
  instructions := .ofItems (·.name) tables.instructions

@[simp]
theorem tables_ofTables (tables : Tables) : (ofTables tables).tables = tables := by
  simp [ofTables, IndexedTables.tables]

theorem build_eq (document : Document) :
    build document = ((Tables.build document).map ofTables).mapError .refused := by
  unfold build Tables.build
  rw [Instruction.fill_eq]
  refine map_mapError_bind fun instructions first => ?_
  have instructionNames := ((Instruction.intake_eq_ok_iff _ _).mp first).2.names
  rw [Decoder.fill_eq instructions instructionNames]
  refine map_mapError_bind fun decoders second => ?_
  have decoderNames := ((Decoder.intake_eq_ok_iff _ _ _).mp second).2.names
  rw [Splitter.fill_eq]
  refine map_mapError_bind fun splitters third => ?_
  have splitterNames := ((Splitter.intake_eq_ok_iff _ _).mp third).2
  rw [Splitter.checkApartFrom_ofItems, Catalog.items_ofItems,
    Selector.tableIn_ofItems _ decoderNames splitterNames]
  cases Splitter.checkApart decoders splitters with
  | error fault => rfl
  | ok _ => cases Selector.table document.opcodes decoders splitters <;> rfl

end IndexedTables

end DecoderTables
