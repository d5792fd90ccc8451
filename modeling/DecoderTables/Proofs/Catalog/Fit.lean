import DecoderTables.Proofs.Catalog.Accepted
import DecoderTables.Proofs.Pattern.Validity

/-!
What the entries of a section have to fulfil so that their catalog refuses none of them, said of
the names as they stand in the document. The names need no condition of their own: where the
identifiers that they derive are distinct, so are they.
-/

namespace DecoderTables
open Json Identifier

namespace Identifier

theorem structName_inj (first second : String) :
    structName first = structName second ↔ pascalCase first = pascalCase second :=
  String.append_right_inj "Instr"

theorem enumTag_inj (first second : String) :
    enumTag first = enumTag second ↔ pascalCase first = pascalCase second :=
  String.append_right_inj "k"

theorem decoderCallback_inj (first second : String) :
    decoderCallback first = decoderCallback second ↔ pascalCase first = pascalCase second :=
  String.append_left_inj "Decoder"

theorem enumTag_eq_invalidTag_iff (name : String) :
    enumTag name = invalidTag ↔ pascalCase name = "Invalid" := by
  have join : "k" ++ "Invalid" = invalidTag := by decide
  rw [enumTag, ← join, String.append_right_inj]

theorem decoderCallback_eq_invalidDecoder_iff (name : String) :
    decoderCallback name = invalidDecoder ↔ pascalCase name = "InvalidInstr" := by
  have join : "InvalidInstr" ++ "Decoder" = invalidDecoder := by decide
  rw [decoderCallback, ← join, String.append_left_inj]

theorem structName_ne_invalidTag (name : String) : structName name ≠ invalidTag := by
  intro same
  have chars := congrArg (fun text => text.toList.head?) same
  simp [structName, invalidTag] at chars

end Identifier

/-- The instructions derive distinct identifiers, and none that the generated code uses. -/
structure InstructionsFit (instructions : Section Members) : Prop where
  distinct : (instructions.map (pascalCase ·.1)).Nodup
  reserved : ∀ entry ∈ instructions, pascalCase entry.1 ≠ "Invalid"

theorem map_pascalCase {α : Type} (entries : Section α) :
    entries.map (pascalCase ·.1) = (entries.map (·.1)).map pascalCase := by
  rw [List.map_map]
  rfl

theorem nodup_names_of_nodup_pascalCase {α : Type} {entries : Section α}
    (distinct : (entries.map (pascalCase ·.1)).Nodup) : (entries.map (·.1)).Nodup := by
  rw [map_pascalCase] at distinct
  exact distinct.of_map

namespace Instruction

theorem disjoint_identifiers_iff (first second : String × Members) :
    List.Disjoint (ofEntry first.1 first.2).identifiers (ofEntry second.1 second.2).identifiers ↔
      pascalCase first.1 ≠ pascalCase second.1 := by
  have apart := structName_ne_enumTag second.1 first.1
  have apart' := structName_ne_enumTag first.1 second.1
  simp [identifiers, ofEntry, structName_inj, enumTag_inj, apart, apart'.symm, eq_comm]

theorem invalidTag_mem_identifiers_iff (entry : String × Members) :
    invalidTag ∈ (ofEntry entry.1 entry.2).identifiers ↔ pascalCase entry.1 = "Invalid" := by
  rw [← enumTag_eq_invalidTag_iff]
  simp [identifiers, ofEntry, (structName_ne_invalidTag _).symm, eq_comm]

theorem distinct_map_ofEntry_iff (entries : Section Members) :
    Distinct (entries.map fun entry => ofEntry entry.1 entry.2) ↔ InstructionsFit entries := by
  have own : ∀ entry ∈ entries, (ofEntry entry.1 entry.2).identifiers.Nodup := by
    simp [identifiers, ofEntry, structName_ne_enumTag]
  have taken_iff : (taken (entries.map fun entry => ofEntry entry.1 entry.2)).Nodup ↔
      InstructionsFit entries := by
    have apart : entries.Pairwise (fun first second => List.Disjoint
        (ofEntry first.1 first.2).identifiers (ofEntry second.1 second.2).identifiers) ↔
        (entries.map (pascalCase ·.1)).Nodup := by
      simp only [disjoint_identifiers_iff, List.Nodup, List.pairwise_map]
    rw [taken, List.flatMap_map, List.nodup_cons, List.nodup_flatMap]
    simp only [List.mem_flatMap, invalidTag_mem_identifiers_iff, not_exists, not_and]
    apply Iff.intro
    · intro given
      obtain ⟨reserved, _, distinct⟩ := given
      exact ⟨apart.mp distinct, reserved⟩
    · intro fit
      exact ⟨fit.reserved, own, apart.mpr fit.distinct⟩
  apply Iff.intro
  · intro distinct
    exact taken_iff.mp distinct.identifiers
  · intro fit
    refine ⟨?_, taken_iff.mpr fit⟩
    rw [List.map_map]
    exact nodup_names_of_nodup_pascalCase fit.distinct

theorem exists_intake_iff (entries : Section Members) :
    (∃ items, (intake entries).result = .ok items) ↔ InstructionsFit entries := by
  simp only [intake_eq_ok_iff, exists_eq_left, distinct_map_ofEntry_iff]

end Instruction

/-- The decoders derive distinct callbacks, and none that the generated code uses; each of them
has a known instruction and, if any, a pattern of the right form. -/
structure DecodersFit (instructions : Section Members) (decoders : Section DecoderEntry) :
    Prop where
  distinct : (decoders.map (pascalCase ·.1)).Nodup
  reserved : ∀ entry ∈ decoders, pascalCase entry.1 ≠ "InvalidInstr"
  known : ∀ entry ∈ decoders, entry.2.instruction ∈ instructions.map (·.1)
  patterns : ∀ entry ∈ decoders, ∀ pattern, entry.2.pattern = some pattern → pattern.Fits

namespace Decoder

theorem exists_patternOf_iff (name : String) (entry : Option PatternEntry) :
    (∃ pattern, patternOf name entry = .ok pattern) ↔
      ∀ pattern, entry = some pattern → pattern.Fits := by
  cases entry with
  | none => exact ⟨fun _ _ given => (nomatch given), fun _ => ⟨none, rfl⟩⟩
  | some given =>
    simp only [Option.some.injEq, forall_eq', ← BitPattern.exists_ofTexts_iff]
    cases made : BitPattern.ofTexts given.lo given.hi with
    | ok pattern => simp [patternOf, made]
    | error fault => simp [patternOf, made]

theorem exists_ofEntry_iff (instructions : List Instruction) (name : String)
    (entry : DecoderEntry) :
    (∃ decoder, ofEntry instructions name entry = .ok decoder) ↔
      entry.instruction ∈ instructions.map (·.name) ∧
        ∀ pattern, entry.pattern = some pattern → pattern.Fits := by
  rw [← exists_patternOf_iff name, ← isSome_find?_name, Option.isSome_iff_exists]
  simp only [ofEntry_eq_ok_iff]
  apply Iff.intro
  · intro given
    obtain ⟨_, instruction, pattern, known, checked, _⟩ := given
    exact ⟨⟨instruction, known⟩, pattern, checked⟩
  · intro given
    obtain ⟨⟨instruction, known⟩, pattern, checked⟩ := given
    exact ⟨_, instruction, pattern, known, checked, rfl⟩

variable {instructions : List Instruction} {entries : Section DecoderEntry} {items : List Decoder}

theorem distinct_iff (made : entries.map (fun entry => ofEntry instructions entry.1 entry.2) =
    items.map .ok) :
    Distinct items ↔ (entries.map (pascalCase ·.1)).Nodup ∧
      ∀ entry ∈ entries, pascalCase entry.1 ≠ "InvalidInstr" := by
  have taken_iff : (taken items).Nodup ↔ (entries.map (pascalCase ·.1)).Nodup ∧
      ∀ entry ∈ entries, pascalCase entry.1 ≠ "InvalidInstr" := by
    rw [taken, callbacks_eq made, List.nodup_cons, and_comm]
    simp only [List.Nodup, List.pairwise_map, ne_eq, decoderCallback_inj, List.mem_map, not_exists,
      not_and, decoderCallback_eq_invalidDecoder_iff]
  apply Iff.intro
  · intro distinct
    exact taken_iff.mp distinct.callbacks
  · intro fit
    refine ⟨?_, taken_iff.mpr fit⟩
    rw [names_eq made]
    exact nodup_names_of_nodup_pascalCase fit.1

theorem exists_intake_iff (instructions : Section Members) (known : List Instruction)
    (names : known.map (·.name) = instructions.map (·.1)) (entries : Section DecoderEntry) :
    (∃ items, (intake known entries).result = .ok items) ↔ DecodersFit instructions entries := by
  have all := exists_map_ok_iff (fun entry : String × DecoderEntry =>
    ofEntry known entry.1 entry.2) entries
  simp only [exists_ofEntry_iff, names] at all
  simp only [intake_eq_ok_iff]
  apply Iff.intro
  · intro given
    obtain ⟨items, made, distinct⟩ := given
    have each := all.mp ⟨items, made⟩
    obtain ⟨apart, reserved⟩ := (distinct_iff made).mp distinct
    exact ⟨apart, reserved, fun entry member => (each entry member).1,
      fun entry member => (each entry member).2⟩
  · intro fit
    obtain ⟨items, made⟩ := all.mpr fun entry member =>
      ⟨fit.known entry member, fit.patterns entry member⟩
    exact ⟨items, made, (distinct_iff made).mpr ⟨fit.distinct, fit.reserved⟩⟩

end Decoder

/-- No splitter has the name or the callback of a decoder. -/
structure CallbacksApart (decoders : Section DecoderEntry) (splitters : Section SplitterEntry) :
    Prop where
  names : ∀ entry ∈ splitters, entry.1 ∉ decoders.map (·.1)
  callbacks : ∀ decoder ∈ decoders, ∀ splitter ∈ splitters,
    pascalCase decoder.1 ++ "Decoder" ≠ "Splitter" ++ splitter.1

namespace Splitter

theorem exists_intake_iff (entries : Section SplitterEntry) :
    (∃ items, (intake entries).result = .ok items) ↔ (entries.map (·.1)).Nodup := by
  simp only [intake_eq_ok_iff, exists_eq_left, names_map_ofEntry]

theorem checkApart_eq_ok_iff_apart {instructions : List Instruction}
    {decoders : Section DecoderEntry} {items : List Decoder}
    (made : decoders.map (fun entry => Decoder.ofEntry instructions entry.1 entry.2) =
      items.map .ok) (splitters : Section SplitterEntry) :
    checkApart items (splitters.map fun entry => ofEntry entry.1 entry.2) = .ok () ↔
      CallbacksApart decoders splitters := by
  rw [checkApart_eq_ok_iff, List.forall_mem_map, Decoder.names_eq made, Decoder.callbacks_eq made]
  apply Iff.intro
  · intro apart
    refine ⟨fun entry member => (apart entry member).1, ?_⟩
    intro decoder known splitter member same
    exact (apart splitter member).2 (List.mem_map.mpr ⟨decoder, known, same⟩)
  · intro apart entry member
    refine ⟨apart.names entry member, ?_⟩
    intro clash
    obtain ⟨decoder, known, same⟩ := List.mem_map.mp clash
    exact apart.callbacks decoder known entry member same

end Splitter

end DecoderTables
