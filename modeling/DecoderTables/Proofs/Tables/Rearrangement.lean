import DecoderTables.Header.Decoders
import DecoderTables.Header.Instructions
import DecoderTables.Listing
import DecoderTables.Proofs.Orders
import DecoderTables.Proofs.Tables.Built
import Mathlib.Data.String.Basic

/-!
The order of a document. Putting the entries of a section in another order puts the records that
are made from them in that order, and changes nothing else; of a list of flags only its members
count.
-/

namespace DecoderTables

namespace FlagSet

theorem ascending_insert {flags : List String} (ascending : flags.Pairwise (· < ·))
    (flag : String) : (insert flag flags).Pairwise (· < ·) := by
  induction flags with
  | nil => exact List.pairwise_singleton _ flag
  | cons first rest ih =>
    obtain ⟨least, ordered⟩ := List.pairwise_cons.mp ascending
    unfold insert
    split
    · next less =>
        apply List.pairwise_cons.mpr ⟨?_, ascending⟩
        rw [List.forall_mem_cons]
        exact ⟨less, fun other member => less.trans (least other member)⟩
    · split
      · exact ascending
      · next notLess other =>
          apply List.pairwise_cons.mpr ⟨?_, ih ordered⟩
          intro item member
          rcases mem_insert.mp member with rfl | known
          · exact (lt_or_gt_of_ne other).resolve_left notLess
          · exact least item known

theorem ascending_ofList (flags : List String) : (ofList flags).Pairwise (· < ·) := by
  induction flags with
  | nil => exact .nil
  | cons flag flags ih => exact ascending_insert ih flag

theorem ofList_eq_of_mem_iff {first second : List String}
    (same : ∀ flag, flag ∈ first ↔ flag ∈ second) : ofList first = ofList second := by
  have distinct : ∀ flags : List String, (ofList flags).Nodup :=
    fun flags => (ascending_ofList flags).imp ne_of_lt
  have antisymm : ∀ a b : String, a ∈ ofList first → b ∈ ofList second → a < b → b < a → a = b :=
    fun a b _ _ less greater => absurd greater (lt_asymm less)
  apply List.Perm.eq_of_pairwise antisymm (ascending_ofList first) (ascending_ofList second)
  apply (List.perm_ext_iff_of_nodup (distinct first) (distinct second)).mpr
  intro flag
  rw [mem_ofList, mem_ofList, same]

end FlagSet

/-- Of distinct keys the same item is found in any order. -/
theorem find?_eq_of_perm {α : Type} (key : α → String) {items others : List α}
    (perm : items.Perm others) (distinct : (items.map key).Nodup) (wanted : String) :
    items.find? (key · = wanted) = others.find? (key · = wanted) := by
  have found := perm.filter (key · = wanted)
  rw [filter_key_eq key items distinct, filter_key_eq key others ((perm.map key).nodup distinct)]
    at found
  cases first : items.find? (key · = wanted) with
  | none =>
    rw [first] at found
    exact (Option.toList_eq_nil_iff.mp found.nil_eq.symm).symm
  | some item =>
    rw [first] at found
    exact (Option.toList_eq_singleton_iff.mp (List.singleton_perm.mp found).symm).symm

theorem lookup_reverse_eq_of_perm {opcodes others : Section OpcodeEntry}
    (perm : opcodes.Perm others) (distinct : (opcodes.map (·.1)).Nodup) (key : String) :
    opcodes.reverse.lookup key = others.reverse.lookup key := by
  apply Option.ext
  intro opcode
  rw [Selector.lookup_reverse_eq_some_iff opcodes distinct,
    Selector.lookup_reverse_eq_some_iff others ((perm.map _).nodup distinct), perm.mem_iff]

theorem Instruction.Distinct.of_perm {items others : List Instruction}
    (distinct : Distinct items) (perm : others.Perm items) : Distinct others where
  names := (perm.map _).nodup_iff.mpr distinct.names
  identifiers :=
    ((perm.flatMap_right Instruction.identifiers).cons _).nodup_iff.mpr distinct.identifiers

theorem Decoder.Distinct.of_perm {items others : List Decoder} (distinct : Distinct items)
    (perm : others.Perm items) : Distinct others where
  names := (perm.map _).nodup_iff.mpr distinct.names
  callbacks := ((perm.map _).cons _).nodup_iff.mpr distinct.callbacks

/-! Documents. -/

/-- The second entry is the first one with the same flags in another order, or repeated. -/
def SameDecoder (first second : String × DecoderEntry) : Prop :=
  ∃ flags, (∀ flag, flag ∈ first.2.flags ↔ flag ∈ flags) ∧
    second = (first.1, { first.2 with flags })

def SameSplitter (first second : String × SplitterEntry) : Prop :=
  ∃ flags, (∀ flag, flag ∈ first.2.flags ↔ flag ∈ flags) ∧
    second = (first.1, { first.2 with flags })

theorem SameDecoder.symm {first second : String × DecoderEntry} (same : SameDecoder first second) :
    SameDecoder second first := by
  obtain ⟨flags, members, rfl⟩ := same
  exact ⟨first.2.flags, fun flag => (members flag).symm, rfl⟩

theorem SameSplitter.symm {first second : String × SplitterEntry}
    (same : SameSplitter first second) : SameSplitter second first := by
  obtain ⟨flags, members, rfl⟩ := same
  exact ⟨first.2.flags, fun flag => (members flag).symm, rfl⟩

theorem SameDecoder.ofEntry_eq {first second : String × DecoderEntry}
    (same : SameDecoder first second) (instructions : List Instruction) :
    Decoder.ofEntry instructions first.1 first.2 =
      Decoder.ofEntry instructions second.1 second.2 := by
  obtain ⟨flags, members, rfl⟩ := same
  dsimp only [Decoder.ofEntry]
  rw [FlagSet.ofList_eq_of_mem_iff members]

theorem SameSplitter.ofEntry_eq {first second : String × SplitterEntry}
    (same : SameSplitter first second) :
    Splitter.ofEntry first.1 first.2 = Splitter.ofEntry second.1 second.2 := by
  obtain ⟨flags, members, rfl⟩ := same
  dsimp only [Splitter.ofEntry]
  rw [FlagSet.ofList_eq_of_mem_iff members]

/-- An order for each section of a document. -/
structure Orders where
  instructions : List Nat
  decoders : List Nat
  splitters : List Nat
  opcodes : List Nat

def Orders.back (orders : Orders) : Orders where
  instructions := DecoderTables.back orders.instructions
  decoders := DecoderTables.back orders.decoders
  splitters := DecoderTables.back orders.splitters
  opcodes := DecoderTables.back orders.opcodes

/-- Everything but the opcodes keeps its place. -/
structure Orders.Keeps (orders : Orders) (document : Document) : Prop where
  instructions : orders.instructions = List.range document.instructions.length
  decoders : orders.decoders = List.range document.decoders.length
  splitters : orders.splitters = List.range document.splitters.length

/-- The second document has the entries of the first one in the orders. -/
structure Rearranged (orders : Orders) (first second : Document) : Prop where
  instructions : Reordered Eq orders.instructions first.instructions second.instructions
  decoders : Reordered SameDecoder orders.decoders first.decoders second.decoders
  splitters : Reordered SameSplitter orders.splitters first.splitters second.splitters
  opcodes : Reordered Eq orders.opcodes first.opcodes second.opcodes

theorem Rearranged.symm {orders : Orders} {first second : Document}
    (rearranged : Rearranged orders first second) : Rearranged orders.back second first where
  instructions := rearranged.instructions.symm fun _ _ => Eq.symm
  decoders := rearranged.decoders.symm fun _ _ => SameDecoder.symm
  splitters := rearranged.splitters.symm fun _ _ => SameSplitter.symm
  opcodes := rearranged.opcodes.symm fun _ _ => Eq.symm

namespace Tables

/-- The records in the orders of their sections. -/
def reorder (orders : Orders) (tables : Tables) : Tables where
  opcodes := tables.opcodes
  decoders := pick orders.decoders tables.decoders
  splitters := pick orders.splitters tables.splitters
  instructions := pick orders.instructions tables.instructions

variable {orders : Orders} {first second : Document} {tables : Tables}

theorem resolve_eq_of_perm {opcodes otherOpcodes : Section OpcodeEntry}
    {decoders otherDecoders : List Decoder} {splitters otherSplitters : List Splitter}
    (opcodesPerm : opcodes.Perm otherOpcodes) (opcodesDistinct : (opcodes.map (·.1)).Nodup)
    (decodersPerm : decoders.Perm otherDecoders) (decodersDistinct : (decoders.map (·.name)).Nodup)
    (splittersPerm : splitters.Perm otherSplitters)
    (splittersDistinct : (splitters.map (·.name)).Nodup) :
    Selector.resolve opcodes decoders splitters =
      Selector.resolve otherOpcodes otherDecoders otherSplitters := by
  have decodersFound : Decoder.find? decoders = Decoder.find? otherDecoders :=
    funext (find?_eq_of_perm Decoder.name decodersPerm decodersDistinct)
  have splittersFound : Splitter.find? splitters = Splitter.find? otherSplitters :=
    funext (find?_eq_of_perm Splitter.name splittersPerm splittersDistinct)
  funext index
  unfold Selector.resolve
  rw [lookup_reverse_eq_of_perm opcodesPerm opcodesDistinct, decodersFound, splittersFound]

theorem Built.lengths (built : Built first tables) :
    tables.instructions.length = first.instructions.length ∧
      tables.decoders.length = first.decoders.length ∧
      tables.splitters.length = first.splitters.length := by
  have decoders := congrArg List.length built.decoders
  rw [List.length_map, List.length_map] at decoders
  refine ⟨?_, decoders.symm, ?_⟩
  · rw [built.instructions, List.length_map]
  · rw [built.splitters, List.length_map]

theorem Built.reorder (built : Built first tables) (rearranged : Rearranged orders first second) :
    Built second (tables.reorder orders) := by
  obtain ⟨instructions, decoders, splitters⟩ := built.lengths
  have instructionsPerm : (pick orders.instructions tables.instructions).Perm
      tables.instructions :=
    IsOrder.pick_perm (instructions ▸ rearranged.instructions.isOrder)
  have decodersPerm : (pick orders.decoders tables.decoders).Perm tables.decoders :=
    IsOrder.pick_perm (decoders ▸ rearranged.decoders.isOrder)
  have splittersPerm : (pick orders.splitters tables.splitters).Perm tables.splitters :=
    IsOrder.pick_perm (splitters ▸ rearranged.splitters.isOrder)
  have opcodesPerm : second.opcodes.Perm first.opcodes :=
    rearranged.opcodes.eq_pick ▸ rearranged.opcodes.isOrder.pick_perm
  have found : Instruction.find? (pick orders.instructions tables.instructions) =
      Instruction.find? tables.instructions :=
    funext (find?_eq_of_perm Instruction.name instructionsPerm
      ((instructionsPerm.map _).nodup_iff.mpr built.distinctInstructions.names))
  refine ⟨?_, built.distinctInstructions.of_perm instructionsPerm, ?_,
    built.distinctDecoders.of_perm decodersPerm, ?_,
    (splittersPerm.map _).nodup_iff.mpr built.distinctSplitters, ?_, ?_,
    (opcodesPerm.map _).nodup_iff.mpr built.distinctKeys, ?_⟩
  · change pick orders.instructions tables.instructions = _
    rw [built.instructions]
    exact (rearranged.instructions.map_eq fun _ _ same => by rw [same]).symm
  · change second.decoders.map (fun entry => Decoder.ofEntry
      (pick orders.instructions tables.instructions) entry.1 entry.2) =
        (pick orders.decoders tables.decoders).map .ok
    rw [← pick_map, ← built.decoders]
    apply rearranged.decoders.map_eq
    intro item entry same
    rw [same.ofEntry_eq]
    unfold Decoder.ofEntry
    rw [found]
  · change pick orders.splitters tables.splitters = _
    rw [built.splitters]
    exact (rearranged.splitters.map_eq fun _ _ same => same.ofEntry_eq).symm
  · intro splitter member
    have apart := built.apart splitter (splittersPerm.mem_iff.mp member)
    rwa [← (decodersPerm.map _).mem_iff, ← (decodersPerm.map Decoder.callback).mem_iff] at apart
  · intro key member
    exact built.keys key ((opcodesPerm.map _).mem_iff.mp member)
  · change (List.range Selector.count).map (Selector.resolve second.opcodes
      (pick orders.decoders tables.decoders) (pick orders.splitters tables.splitters)) = _
    rw [← resolve_eq_of_perm opcodesPerm.symm built.distinctKeys decodersPerm.symm
      built.distinctDecoders.names splittersPerm.symm built.distinctSplitters]
    exact built.opcodes

theorem build_reorder (rearranged : Rearranged orders first second)
    (built : build first = .ok tables) : build second = .ok (tables.reorder orders) :=
  (build_eq_ok_iff _ _).mpr (((build_eq_ok_iff _ _).mp built).reorder rearranged)

theorem Built.reorder_of_keeps (built : Built first tables) (keeps : orders.Keeps first) :
    tables.reorder orders = tables := by
  obtain ⟨instructions, decoders, splitters⟩ := built.lengths
  unfold Tables.reorder
  rw [keeps.instructions, keeps.decoders, keeps.splitters, ← instructions, ← decoders, ← splitters,
    pick_range, pick_range, pick_range]

/-- Of a document in other orders the tables can be built when they can be built of the document,
with the same selector table and with the same records in these orders. Where everything but the
opcodes keeps its place, all views of the tables are the same. -/
theorem build_of_rearranged (rearranged : Rearranged orders first second) :
    ((∃ tables, build first = .ok tables) ↔ ∃ tables, build second = .ok tables) ∧
      ∀ tables others, build first = .ok tables → build second = .ok others →
        (others.opcodes = tables.opcodes ∧
          others.instructions = pick orders.instructions tables.instructions ∧
          others.decoders = pick orders.decoders tables.decoders ∧
          others.splitters = pick orders.splitters tables.splitters) ∧
        (orders.Keeps first →
          (∀ options, Header.instructions others options = Header.instructions tables options ∧
            Header.decoders? others options = Header.decoders? tables options) ∧
          others.json = tables.json ∧
          ∀ color, Listing.text color others = Listing.text color tables) := by
  refine ⟨⟨?_, ?_⟩, ?_⟩
  · intro given
    obtain ⟨tables, built⟩ := given
    exact ⟨_, build_reorder rearranged built⟩
  · intro given
    obtain ⟨tables, built⟩ := given
    exact ⟨_, build_reorder rearranged.symm built⟩
  · intro tables others firstBuilt secondBuilt
    cases (build_reorder rearranged firstBuilt).symm.trans secondBuilt
    refine ⟨⟨rfl, rfl, rfl, rfl⟩, fun keeps => ?_⟩
    rw [((build_eq_ok_iff _ _).mp firstBuilt).reorder_of_keeps keeps]
    exact ⟨fun _ => ⟨rfl, rfl⟩, rfl, fun _ => rfl⟩

/-- The opcodes of the sample document change places, and a flag is repeated. -/
def sampleOrders : Orders :=
  ⟨[0], [0], [0], [1, 0]⟩

def rearrangedSample : Document where
  instructions := [("mov_reg", [])]
  decoders := [("mov_reg_t1",
    ⟨"mov_reg", ["a", "b", "a"], some ⟨"01000110xxxxxxxx", none⟩, []⟩)]
  splitters := [("16bit_op01000", ⟨["s"], []⟩)]
  opcodes := [("00000", ⟨"mov_reg_t1", []⟩), ("01000", ⟨"16bit_op01000", []⟩)]

theorem rearranged_sample : Rearranged sampleOrders sampleDocument rearrangedSample where
  instructions := ⟨by decide, .cons rfl .nil⟩
  decoders := ⟨by decide, .cons ⟨["a", "b", "a"], by simp [or_comm], rfl⟩ .nil⟩
  splitters := ⟨by decide, .cons ⟨["s"], fun _ => Iff.rfl, rfl⟩ .nil⟩
  opcodes := ⟨by decide, .cons rfl (.cons rfl .nil)⟩

theorem build_of_rearranged_sample :
    ∃ tables others, build sampleDocument = .ok tables ∧ build rearrangedSample = .ok others ∧
      others.opcodes = tables.opcodes ∧ others.json = tables.json := by
  obtain ⟨iff, same⟩ := build_of_rearranged rearranged_sample
  obtain ⟨tables, built⟩ := exists_build_sample
  obtain ⟨others, otherBuilt⟩ := iff.mp ⟨tables, built⟩
  obtain ⟨records, views⟩ := same tables others built otherBuilt
  exact ⟨tables, others, built, otherBuilt, records.1, (views ⟨rfl, rfl, rfl⟩).2.1⟩

end Tables

end DecoderTables
