import DecoderTables.Proofs.Tables.Built
import DecoderTables.Proofs.Tables.Opacity

/-!
The headers show the visible part of the tables only. Two documents with the same visible part
therefore have the same headers, whatever their entries hold besides.
-/

namespace DecoderTables
open Json

namespace Header

/-! What is read of the fields of an entry. -/

theorem dataMembers_visible (instruction : Instruction) :
    dataMembers instruction.visible = dataMembers instruction := by
  unfold dataMembers Instruction.visible
  dsimp only
  rw [Members.get?_only]

theorem bodyOf_only (fields : Members) : bodyOf (fields.only "body") = bodyOf fields := by
  unfold bodyOf
  rw [Members.get?_only]

/-! The instruction header. -/

theorem structLines_visible (instruction : Instruction) :
    structLines instruction.visible = structLines instruction := by
  unfold structLines
  rw [dataMembers_visible]
  rfl

theorem instructions_visible (tables : Tables) (options : HeaderOptions) :
    instructions tables.visible options = instructions tables options := by
  have enumeration : enumLines tables.visible.instructions = enumLines tables.instructions := by
    unfold enumLines Tables.visible
    rw [List.map_map]
    rfl
  have structs : tables.visible.instructions.flatMap structLines =
      tables.instructions.flatMap structLines := by
    rw [Tables.visible, List.flatMap_map]
    exact List.flatMap_congr fun instruction _ => structLines_visible instruction
  have union : unionLines tables.visible.instructions = unionLines tables.instructions := by
    unfold unionLines Tables.visible
    rw [List.map_map, List.map_map]
    rfl
  rw [instructions, instructionLines, enumeration, structs, union]
  rfl

/-! The decoder header. -/

theorem initialised_visible (instructions : List Instruction) (decoder : Decoder) :
    initialised (instructions.map Instruction.visible) decoder.visible =
      initialised instructions decoder := by
  have wanted : decoder.visible.instruction = decoder.instruction := rfl
  unfold initialised
  rw [wanted, Instruction.find?_visible]
  cases Instruction.find? instructions decoder.instruction with
  | none => rfl
  | some instruction =>
    dsimp only [Option.map_some]
    rw [dataMembers_visible]

theorem decoderLines_visible (instructions : List Instruction) (decoder : Decoder) :
    decoderLines (instructions.map Instruction.visible) decoder.visible =
      decoderLines instructions decoder := by
  have body : bodyOf decoder.visible.fields = bodyOf decoder.fields := bodyOf_only decoder.fields
  unfold decoderLines decoderBody
  rw [body, initialised_visible]
  rfl

theorem splitterLines_visible (splitter : Splitter) :
    splitterLines splitter.visible = splitterLines splitter := by
  have body : bodyOf splitter.visible.fields = bodyOf splitter.fields := bodyOf_only splitter.fields
  unfold splitterLines splitterBody
  rw [body]
  rfl

theorem callLines_visible (entries : List SelectorEntry) :
    callLines (entries.map SelectorEntry.visible) = callLines entries := by
  unfold callLines callBody
  rw [List.flatMap_map]
  rfl

theorem decoders?_visible (tables : Tables) (options : HeaderOptions) :
    decoders? tables.visible options = decoders? tables options := by
  have decoders : tables.visible.decoders.flatMap
      (fun decoder => "" :: decoderLines tables.visible.instructions decoder) =
        tables.decoders.flatMap fun decoder => "" :: decoderLines tables.instructions decoder := by
    rw [Tables.visible, List.flatMap_map]
    apply List.flatMap_congr
    intro decoder _
    rw [decoderLines_visible]
  have splitters : tables.visible.splitters.flatMap (fun splitter => "" :: splitterLines splitter) =
      tables.splitters.flatMap fun splitter => "" :: splitterLines splitter := by
    rw [Tables.visible, List.flatMap_map]
    apply List.flatMap_congr
    intro splitter _
    rw [splitterLines_visible]
  have calls : callLines tables.visible.opcodes = callLines tables.opcodes :=
    callLines_visible tables.opcodes
  rw [decoders?, decoderHeaderLines, decoders, splitters, calls]
  rfl

end Header

/-- Of the other document tables with the same visible part can be built, too. -/
theorem exists_build_of_visible_eq {left right : Document} (same : left.visible = right.visible)
    {tables : Tables} (built : Tables.build left = .ok tables) :
    ∃ others, Tables.build right = .ok others ∧ others.visible = tables.visible := by
  have parts :
      (Tables.build right).map Tables.visible = (Tables.build left).map Tables.visible := by
    rw [← Tables.build_visible, ← same, Tables.build_visible]
  rw [built] at parts
  cases result : Tables.build right with
  | error fault =>
    rw [result] at parts
    cases parts
  | ok others =>
    rw [result] at parts
    exact ⟨others, rfl, Except.ok.inj parts⟩

/-- Documents that differ in opaque data only have the same headers, with any options. -/
theorem headers_eq_of_visible_eq {left right : Document} (same : left.visible = right.visible)
    {tables others : Tables} (built : Tables.build left = .ok tables)
    (alsoBuilt : Tables.build right = .ok others) (options : HeaderOptions) :
    Header.instructions tables options = Header.instructions others options ∧
      Header.decoders? tables options = Header.decoders? others options := by
  obtain ⟨found, again, visible⟩ := exists_build_of_visible_eq same built
  rw [Except.ok.inj (again.symm.trans alsoBuilt)] at visible
  constructor
  · calc Header.instructions tables options
      _ = Header.instructions tables.visible options := (Header.instructions_visible _ _).symm
      _ = Header.instructions others.visible options := by rw [visible]
      _ = Header.instructions others options := Header.instructions_visible _ _
  · calc Header.decoders? tables options
      _ = Header.decoders? tables.visible options := (Header.decoders?_visible _ _).symm
      _ = Header.decoders? others.visible options := by rw [visible]
      _ = Header.decoders? others options := Header.decoders?_visible _ _

/-- The sample document with other opaque data in each section. -/
def opaqueSample : Document where
  instructions := [("mov_reg", [("since", .string "v6")])]
  decoders := [("mov_reg_t1",
    ⟨"mov_reg", ["b", "a"], some ⟨"01000110xxxxxxxx", none⟩, [("page", .natural 12)]⟩)]
  splitters := [("16bit_op01000", ⟨["t"], [("page", .natural 5)]⟩)]
  opcodes := [("01000", ⟨"16bit_op01000", [("note", .null)]⟩), ("00000", ⟨"mov_reg_t1", []⟩)]

theorem headers_eq_of_visible_eq_sample :
    ∃ tables others, Tables.build Tables.sampleDocument = .ok tables ∧
      Tables.build opaqueSample = .ok others ∧
      Header.instructions tables {} = Header.instructions others {} ∧
      Header.decoders? tables {} = Header.decoders? others {} := by
  have same : Tables.sampleDocument.visible = opaqueSample.visible := by rfl
  obtain ⟨tables, built⟩ := Tables.exists_build_sample
  obtain ⟨others, alsoBuilt, _⟩ := exists_build_of_visible_eq same built
  exact ⟨tables, others, built, alsoBuilt, headers_eq_of_visible_eq same built alsoBuilt {}⟩

end DecoderTables
