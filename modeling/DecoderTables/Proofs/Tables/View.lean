import DecoderTables.Proofs.Document.Written
import DecoderTables.Proofs.Json.Unambiguity
import DecoderTables.Proofs.Pattern.Separation
import DecoderTables.Proofs.Tables.Built

/-!
The view of tables as a text shows all of the data: tables of two documents with the same text are
the same. Every part of the view is determined by its value, and the value by its text.
-/

namespace DecoderTables
open Json

theorem Json.Value.natural_inj {m n : Nat} (small : m < 0x10000000000000000)
    (otherSmall : n < 0x10000000000000000) (same : Value.natural m = Value.natural n) : m = n := by
  have numbers := congrArg Integer.value (Number.integer.inj (Value.number.inj same))
  have naturals : m % 0x10000000000000000 = n % 0x10000000000000000 := Int.ofNat.inj numbers
  rwa [Nat.mod_eq_of_lt small, Nat.mod_eq_of_lt otherSmall] at naturals

/-- Lists with the same view, of items that their views tell apart. -/
theorem eq_of_map_eq_map {α β : Type} {view : α → β} {items others : List α}
    (each : ∀ item ∈ items, ∀ other ∈ others, view item = view other → item = other)
    (same : items.map view = others.map view) : items = others := by
  induction items generalizing others with
  | nil => exact (List.map_eq_nil_iff.mp same.symm).symm
  | cons item items ih =>
    cases others with
    | nil => cases same
    | cons other others =>
      obtain ⟨views, rest⟩ := List.cons.inj same
      rw [each item List.mem_cons_self other List.mem_cons_self views,
        ih (fun a member b inside =>
          each a (List.mem_cons_of_mem _ member) b (List.mem_cons_of_mem _ inside)) rest]

theorem Half.name_inj {half other : Half} (same : half.name = other.name) : half = other := by
  cases half <;> cases other <;> first | rfl | exact absurd same (by decide)

theorem EntryKind.name_inj {kind other : EntryKind} (same : kind.name = other.name) :
    kind = other := by
  cases kind <;> cases other <;> first | rfl | exact absurd same (by decide)

theorem Predicate.eq_of_toJson_eq {predicate other : Predicate} (proper : predicate.check.Proper)
    (otherProper : other.check.Proper) (same : predicate.toJson = other.toJson) :
    predicate = other := by
  obtain ⟨half, check⟩ := predicate
  obtain ⟨otherHalf, otherCheck⟩ := other
  have members := Value.object.inj same
  simp only [List.cons.injEq, Prod.mk.injEq, Value.string.injEq, true_and] at members
  obtain ⟨halves, checks⟩ := members
  obtain rfl := Half.name_inj halves
  obtain ⟨ordered, within⟩ := proper
  obtain ⟨otherOrdered, otherWithin⟩ := otherProper
  cases check with
  | bit place value =>
    cases otherCheck with
    | bit otherPlace otherValue =>
      simp only [List.cons.injEq, Prod.mk.injEq, Value.bool.injEq, true_and, and_true] at checks
      obtain ⟨places, rfl⟩ := checks
      simp only [Check.high] at within otherWithin
      obtain rfl := Value.natural_inj (by omega) (by omega) places
      rfl
    | range _ _ _ => simp at checks
  | range high low literal =>
    cases otherCheck with
    | bit _ _ => simp at checks
    | range otherHigh otherLow otherLiteral =>
      simp only [List.cons.injEq, Prod.mk.injEq, Value.string.injEq, true_and, and_true] at checks
      obtain ⟨highs, lows, rfl⟩ := checks
      simp only [Check.high, Check.low] at ordered within otherOrdered otherWithin
      obtain rfl := Value.natural_inj (by omega) (by omega) highs
      obtain rfl := Value.natural_inj (by omega) (by omega) lows
      rfl

@[simp]
theorem Predicate.floatFree_toJson (predicate : Predicate) : predicate.toJson.FloatFree := by
  obtain ⟨half, check⟩ := predicate
  cases check <;> simp [Predicate.toJson]

theorem HalfPattern.eq_of_text_eq {pattern other : HalfPattern} (same : pattern.text = other.text) :
    pattern = other := by
  obtain ⟨text, _⟩ := pattern
  obtain ⟨otherText, _⟩ := other
  obtain rfl : text = otherText := same
  rfl

theorem BitPattern.toJson_injective : Function.Injective BitPattern.toJson := by
  intro pattern other same
  obtain ⟨lo, hi⟩ := pattern
  obtain ⟨otherLo, otherHi⟩ := other
  have members := Value.object.inj same
  simp only [List.cons.injEq, Prod.mk.injEq, Value.string.injEq, true_and] at members
  obtain ⟨lows, highs⟩ := members
  obtain rfl := HalfPattern.eq_of_text_eq lows
  cases hi with
  | none =>
    cases otherHi with
    | none => rfl
    | some _ => cases highs
  | some hi =>
    cases otherHi with
    | none => cases highs
    | some otherHi =>
      simp only [List.cons.injEq, Prod.mk.injEq, Value.string.injEq, true_and, and_true] at highs
      obtain rfl := HalfPattern.eq_of_text_eq highs
      rfl

@[simp]
theorem BitPattern.floatFree_toJson (pattern : BitPattern) : pattern.toJson.FloatFree := by
  obtain ⟨lo, hi⟩ := pattern
  cases hi <;> simp [BitPattern.toJson]

namespace Tables

theorem strings_injective : Function.Injective strings := by
  intro texts others same
  exact List.map_injective_iff.mpr (fun _ _ => Value.string.inj) (Value.array.inj same)

theorem entryJson_injective : Function.Injective entryJson := by
  intro entry other same
  obtain ⟨index, bin, kind, callback, flags, fields⟩ := entry
  obtain ⟨otherIndex, otherBin, otherKind, otherCallback, otherFlags, otherFields⟩ := other
  have members := Value.object.inj same
  simp only [List.cons.injEq, Prod.mk.injEq, Value.string.injEq, Value.object.injEq, true_and,
    and_true] at members
  obtain ⟨indices, rfl, kinds, rfl, flagLists, rfl⟩ := members
  have bound := index.toNat_lt
  have otherBound := otherIndex.toNat_lt
  obtain rfl := UInt8.toNat_inj.mp (Value.natural_inj (by omega) (by omega) indices)
  obtain rfl := EntryKind.name_inj kinds
  obtain rfl := strings_injective flagLists
  rfl

theorem splitterJson_injective : Function.Injective splitterJson := by
  intro splitter other same
  obtain ⟨name, callback, flags, fields⟩ := splitter
  obtain ⟨otherName, otherCallback, otherFlags, otherFields⟩ := other
  have members := Value.object.inj same
  simp only [List.cons.injEq, Prod.mk.injEq, Value.string.injEq, Value.object.injEq, true_and,
    and_true] at members
  obtain ⟨rfl, rfl, flagLists, rfl⟩ := members
  obtain rfl := strings_injective flagLists
  rfl

theorem instructionJson_injective : Function.Injective instructionJson := by
  intro instruction other same
  obtain ⟨name, structName, enumTag, fields⟩ := instruction
  obtain ⟨otherName, otherStructName, otherEnumTag, otherFields⟩ := other
  have members := Value.object.inj same
  simp only [List.cons.injEq, Prod.mk.injEq, Value.string.injEq, Value.object.injEq, true_and,
    and_true] at members
  obtain ⟨rfl, rfl, rfl, rfl⟩ := members
  rfl

theorem eq_of_decoderJson_eq {decoder other : Decoder}
    (proper : ∀ predicate ∈ decoder.predicates, predicate.check.Proper)
    (otherProper : ∀ predicate ∈ other.predicates, predicate.check.Proper)
    (same : decoderJson decoder = decoderJson other) : decoder = other := by
  obtain ⟨name, instruction, callback, structName, enumTag, flags, pattern, predicates, fields⟩ :=
    decoder
  obtain ⟨otherName, otherInstruction, otherCallback, otherStructName, otherEnumTag, otherFlags,
    otherPattern, otherPredicates, otherFields⟩ := other
  have members := Value.object.inj same
  simp only [List.cons_append, List.nil_append, List.cons.injEq, Prod.mk.injEq, Value.string.injEq,
    true_and] at members
  obtain ⟨rfl, rfl, rfl, rfl, rfl, flagLists, members⟩ := members
  obtain rfl := strings_injective flagLists
  -- the member behind the flags is the pattern if there is one, else the list of predicates
  have behind : pattern = otherPattern ∧
      predicates.map (·.toJson) = otherPredicates.map (·.toJson) ∧ fields = otherFields := by
    cases pattern with
    | none =>
      cases otherPattern with
      | none => simpa using members
      | some _ => simp at members
    | some pattern =>
      cases otherPattern with
      | none => simp at members
      | some otherPattern =>
        simp only [List.cons_append, List.nil_append, List.cons.injEq, Prod.mk.injEq,
          Value.array.injEq, Value.object.injEq, true_and, and_true] at members
        obtain ⟨patterns, rest⟩ := members
        exact ⟨congrArg some (BitPattern.toJson_injective patterns), rest⟩
  obtain ⟨rfl, views, rfl⟩ := behind
  obtain rfl := eq_of_map_eq_map (fun predicate member other inside =>
    Predicate.eq_of_toJson_eq (proper predicate member) (otherProper other inside)) views
  rfl

/-- Tables whose predicates look at some bits of a half-word each. -/
def Proper (tables : Tables) : Prop :=
  ∀ decoder ∈ tables.decoders, ∀ predicate ∈ decoder.predicates, predicate.check.Proper

theorem eq_of_toJson_eq {tables others : Tables} (proper : tables.Proper)
    (otherProper : others.Proper) (same : tables.toJson = others.toJson) : tables = others := by
  obtain ⟨opcodes, decoders, splitters, instructions⟩ := tables
  obtain ⟨otherOpcodes, otherDecoders, otherSplitters, otherInstructions⟩ := others
  have members := Value.object.inj same
  simp only [List.cons.injEq, Prod.mk.injEq, Value.array.injEq, true_and, and_true] at members
  obtain ⟨opcodeViews, decoderViews, splitterViews, instructionViews⟩ := members
  obtain rfl := List.map_injective_iff.mpr entryJson_injective opcodeViews
  obtain rfl := List.map_injective_iff.mpr splitterJson_injective splitterViews
  obtain rfl := List.map_injective_iff.mpr instructionJson_injective instructionViews
  obtain rfl := eq_of_map_eq_map (fun decoder member other inside =>
    eq_of_decoderJson_eq (proper decoder member) (otherProper other inside)) decoderViews
  rfl

/-- The fields of all entries of the tables. -/
def allFields (tables : Tables) : List Members :=
  tables.opcodes.map (·.fields) ++ tables.decoders.map (·.fields) ++
    tables.splitters.map (·.fields) ++ tables.instructions.map (·.fields)

@[simp]
theorem floatFree_strings (texts : List String) : (strings texts).FloatFree := by
  simp [strings]

theorem floatFree_entryJson_iff (entry : SelectorEntry) :
    (entryJson entry).FloatFree ↔ (Value.object entry.fields).FloatFree := by
  simp [entryJson]

theorem floatFree_decoderJson_iff (decoder : Decoder) :
    (decoderJson decoder).FloatFree ↔ (Value.object decoder.fields).FloatFree := by
  cases pattern : decoder.pattern with
  | none => simp [decoderJson, pattern]
  | some _ => simp [decoderJson, pattern]

theorem floatFree_splitterJson_iff (splitter : Splitter) :
    (splitterJson splitter).FloatFree ↔ (Value.object splitter.fields).FloatFree := by
  simp [splitterJson]

theorem floatFree_instructionJson_iff (instruction : Instruction) :
    (instructionJson instruction).FloatFree ↔ (Value.object instruction.fields).FloatFree := by
  simp [instructionJson]

theorem floatFree_toJson_iff (tables : Tables) :
    tables.toJson.FloatFree ↔ ∀ fields ∈ tables.allFields, (Value.object fields).FloatFree := by
  simp only [toJson, allFields, Value.floatFree_object_iff, Value.floatFree_array_iff,
    List.forall_mem_append, List.forall_mem_map, List.forall_mem_cons, List.not_mem_nil,
    floatFree_entryJson_iff, floatFree_decoderJson_iff, floatFree_splitterJson_iff,
    floatFree_instructionJson_iff]
  simp [and_assoc]

namespace Built

variable {document : Document} {tables : Tables}

theorem proper (built : Built document tables) : tables.Proper := by
  intro decoder member
  obtain ⟨entry, _, made⟩ := exists_of_map_ok built.decoders member
  obtain ⟨instruction, pattern, _, _, rfl⟩ := (Decoder.ofEntry_eq_ok_iff _ _ _ _).mp made
  cases pattern with
  | none => nofun
  | some pattern => exact pattern.proper_of_mem_predicates

theorem fields_of_mem_opcodes (built : Built document tables) {entry : SelectorEntry}
    (member : entry ∈ tables.opcodes) :
    entry.fields = [] ∨ entry.fields ∈ document.opcodes.map (·.2.fields) := by
  obtain ⟨index, _, resolved⟩ := exists_of_map_ok built.opcodes member
  have named := Selector.lookup_reverse_eq_some_iff document.opcodes built.distinctKeys
    (Selector.binary index)
  rcases (Selector.resolve_eq_ok_iff _ _ _ _ _).mp resolved with
    ⟨_, rfl⟩ | ⟨opcode, _, present, _, _, rfl⟩ | ⟨opcode, _, present, _, _, rfl⟩
  · exact Or.inl rfl
  · exact Or.inr (List.mem_map.mpr ⟨_, (named opcode).mp present, rfl⟩)
  · exact Or.inr (List.mem_map.mpr ⟨_, (named opcode).mp present, rfl⟩)

/-- The fields of the tables are fields of the document. The entries of unused selector values have
none. -/
theorem fields_of_mem_allFields (built : Built document tables) {fields : Members}
    (member : fields ∈ tables.allFields) : fields = [] ∨ fields ∈ document.allFields := by
  have instructions : tables.instructions.map (·.fields) = document.instructions.map (·.2) := by
    rw [built.instructions, List.map_map]
    rfl
  have splitters : tables.splitters.map (·.fields) = document.splitters.map (·.2.fields) := by
    rw [built.splitters, List.map_map]
    rfl
  have decoders : tables.decoders.map (·.fields) = document.decoders.map (·.2.fields) :=
    map_eq_of_map_ok built.decoders _ _ fun entry decoder made => by
      obtain ⟨_, _, _, _, rfl⟩ := (Decoder.ofEntry_eq_ok_iff _ _ _ _).mp made
      rfl
  rw [allFields, decoders, splitters, instructions] at member
  simp only [List.mem_append] at member
  rw [Document.allFields]
  simp only [List.mem_append]
  rcases member with ((inOpcodes | inDecoders) | inSplitters) | inInstructions
  · obtain ⟨entry, member, rfl⟩ := List.mem_map.mp inOpcodes
    exact (built.fields_of_mem_opcodes member).imp_right Or.inr
  · exact Or.inr (Or.inl (Or.inl (Or.inr inDecoders)))
  · exact Or.inr (Or.inl (Or.inr inSplitters))
  · exact Or.inr (Or.inl (Or.inl (Or.inl inInstructions)))

theorem floatFree_toJson (built : Built document tables)
    (free : ∀ fields ∈ document.allFields, (Value.object fields).FloatFree) :
    tables.toJson.FloatFree := by
  refine (floatFree_toJson_iff tables).mpr ?_
  intro fields member
  rcases built.fields_of_mem_allFields member with rfl | inDocument
  · exact .object nofun
  · exact free fields inDocument

end Built

/-- Documents without floating-point numbers whose tables have the same text have the same
tables. -/
theorem eq_of_json_eq {first second : Document} {tables others : Tables}
    (free : ∀ fields ∈ first.allFields, (Value.object fields).FloatFree)
    (otherFree : ∀ fields ∈ second.allFields, (Value.object fields).FloatFree)
    (built : build first = .ok tables) (otherBuilt : build second = .ok others)
    (same : tables.json = others.json) : tables = others := by
  have parts := (build_eq_ok_iff first tables).mp built
  have otherParts := (build_eq_ok_iff second others).mp otherBuilt
  have values : tables.toJson = others.toJson :=
    (parts.floatFree_toJson free).eq_of_prettyText_eq (otherParts.floatFree_toJson otherFree) same
  exact eq_of_toJson_eq parts.proper otherParts.proper values

/-- The sample with the flags of its decoder in another order, and one of them repeated. -/
def turnedDocument : Document :=
  { sampleDocument with
    decoders := [("mov_reg_t1",
      ⟨"mov_reg", ["a", "b", "a"], some ⟨"01000110xxxxxxxx", none⟩, []⟩)] }

theorem build_turnedDocument : build turnedDocument = build sampleDocument := by
  have flags : FlagSet.ofList ["a", "b", "a"] = FlagSet.ofList ["b", "a"] := by decide
  simp only [build, turnedDocument, sampleDocument, Decoder.intake, takeIn, Decoder.accept,
    Decoder.ofEntry, flags]

theorem eq_of_json_eq_turned :
    ∃ tables others, build sampleDocument = .ok tables ∧ build turnedDocument = .ok others ∧
      tables.json = others.json ∧ tables = others := by
  obtain ⟨tables, built⟩ := exists_build_sample
  have turned := build_turnedDocument.trans built
  refine ⟨tables, tables, built, turned, rfl, eq_of_json_eq ?_ ?_ built turned rfl⟩
  · simp [Document.allFields, sampleDocument]
  · simp [Document.allFields, turnedDocument, sampleDocument]

end Tables

end DecoderTables
