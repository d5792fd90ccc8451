import DecoderTables.Proofs.Pattern.Validity
import DecoderTables.Proofs.Tables.Equality
import DecoderTables.Proofs.Tables.Indexed
import DecoderTables.Proofs.Tables.Rearrangement

/-!
The catalogs of tables that were built are images of the sections of their document. A look-up finds
what the section has under the name, and catalogs with equal items are equal with their indices.
-/

namespace DecoderTables
open Json

/-- A list that has every given flag once, in ascending order. -/
structure FlagSet.Lists (set given : List String) : Prop where
  ascending : set.Pairwise (· < ·)
  mem_iff : ∀ flag, flag ∈ set ↔ flag ∈ given

theorem FlagSet.lists_ofList (flags : List String) : Lists (ofList flags) flags :=
  ⟨ascending_ofList flags, fun _ => mem_ofList⟩

/-- What the record of an instruction has, field by field. -/
structure Instruction.MadeOf (key : String) (fields : Members) (instruction : Instruction) :
    Prop where
  name : instruction.name = key
  structName : instruction.structName = "Instr" ++ Identifier.pascalCase key
  enumTag : instruction.enumTag = "k" ++ Identifier.pascalCase key
  fields : instruction.fields = fields

/-- What the record of a decoder has, field by field. The texts of its pattern are those of the
entry, and its predicates are those of the pattern. -/
structure Decoder.MadeOf (key : String) (entry : DecoderEntry) (decoder : Decoder) : Prop where
  name : decoder.name = key
  instruction : decoder.instruction = entry.instruction
  callback : decoder.callback = Identifier.pascalCase key ++ "Decoder"
  structName : decoder.structName = "Instr" ++ Identifier.pascalCase entry.instruction
  enumTag : decoder.enumTag = "k" ++ Identifier.pascalCase entry.instruction
  flags : FlagSet.Lists decoder.flags entry.flags
  pattern : decoder.pattern.map (·.texts) = entry.pattern
  checked : ∀ pattern, decoder.pattern = some pattern → decoder.predicates = pattern.predicates
  unchecked : decoder.pattern = none → decoder.predicates = []
  fields : decoder.fields = entry.fields

/-- What the record of a splitter has, field by field. -/
structure Splitter.MadeOf (key : String) (entry : SplitterEntry) (splitter : Splitter) :
    Prop where
  name : splitter.name = key
  callback : splitter.callback = "Splitter" ++ key
  flags : FlagSet.Lists splitter.flags entry.flags
  fields : splitter.fields = entry.fields

/-- A catalog with one record for each entry of a section, in the same order. A name leads to the
record of its first entry. -/
structure Catalog.ImageOf {ε α : Type} (catalog : Catalog α) (entries : Section ε)
    (MadeOf : String → ε → α → Prop) : Prop where
  items : List.Forall₂ (fun entry => MadeOf entry.1 entry.2) entries catalog.items
  inside : ∀ name position, catalog.index.lookup name = some position →
    position < catalog.items.length
  present : ∀ name entry, entries.get? name = some entry →
    ∃ item, MadeOf name entry item ∧ catalog.get name = .ok (some item)
  absent : ∀ name, entries.get? name = none → catalog.get name = .ok none
  contains : ∀ name, catalog.contains name = (entries.get? name).isSome

section Sections

variable {ε α : Type} {make : String → ε → Except BuildError α} {name : α → String}

/-- Entries and their items are found by the same names. -/
theorem map_get?_eq (named : ∀ key entry item, make key entry = .ok item → name item = key)
    {entries : Section ε} {items : List α}
    (made : entries.map (fun entry => make entry.1 entry.2) = items.map .ok) (key : String) :
    (entries.get? key).map (make key) = (items.find? (name · = key)).map .ok := by
  induction entries generalizing items with
  | nil =>
    rw [List.map_eq_nil_iff.mp made.symm]
    rfl
  | cons entry entries ih =>
    obtain ⟨first, spec⟩ := entry
    cases items with
    | nil => cases made
    | cons item items =>
      obtain ⟨here, rest⟩ := List.cons.inj made
      have itemName := named first spec item here
      by_cases same : first = key
      · subst same
        rw [List.find?_cons_of_pos (by simpa using itemName), Section.get?, List.lookup_cons_self]
        exact congrArg some here
      · have different : name item ≠ key := itemName ▸ same
        have passed : (key == first) = false := beq_eq_false_iff_ne.mpr (Ne.symm same)
        rw [List.find?_cons_of_neg (by simpa using different), ← ih rest, Section.get?,
          List.lookup_cons, passed]
        rfl

theorem Catalog.imageOf_ofItems {MadeOf : String → ε → α → Prop}
    (named : ∀ key entry item, make key entry = .ok item → name item = key)
    (records : ∀ key entry item, make key entry = .ok item → MadeOf key entry item)
    {entries : Section ε} {items : List α}
    (made : entries.map (fun entry => make entry.1 entry.2) = items.map .ok)
    (distinct : (items.map name).Nodup) : (ofItems name items).ImageOf entries MadeOf where
  items := by
    rw [items_ofItems]
    rw [← List.forall₂_eq_eq_eq, List.forall₂_map_left_iff, List.forall₂_map_right_iff] at made
    exact made.imp fun _ _ => records _ _ _
  inside key position found := by
    rw [items_ofItems]
    exact lt_of_lookup_ofItems name distinct found
  present key entry found := by
    have both := map_get?_eq named made key
    rw [found, Option.map_some, eq_comm, Option.map_eq_some_iff] at both
    obtain ⟨item, there, here⟩ := both
    refine ⟨item, records key entry item here.symm, ?_⟩
    rw [get_ofItems name items distinct, there]
  absent key missing := by
    have both := map_get?_eq named made key
    rw [missing, Option.map_none, eq_comm, Option.map_eq_none_iff] at both
    rw [get_ofItems name items distinct, both]
  contains key := by
    have both := congrArg Option.isSome (map_get?_eq named made key)
    rw [Option.isSome_map, Option.isSome_map] at both
    rw [contains_ofItems, both, Bool.eq_iff_iff, decide_eq_true_eq]
    exact (isSome_find?_name name items key).symm

/-- The case of entries that are never refused by themselves. -/
theorem Catalog.imageOf_ofItems_map {MadeOf : String → ε → α → Prop} {record : String → ε → α}
    (named : ∀ key entry, name (record key entry) = key)
    (records : ∀ key entry, MadeOf key entry (record key entry)) {entries : Section ε}
    {items : List α} (made : items = entries.map fun entry => record entry.1 entry.2)
    (distinct : (items.map name).Nodup) : (ofItems name items).ImageOf entries MadeOf := by
  let make : String → ε → Except BuildError α := fun key entry => .ok (record key entry)
  have accepted : entries.map (fun entry => make entry.1 entry.2) = items.map .ok :=
    (map_ok_iff _ _ _).mpr made
  refine imageOf_ofItems ?_ ?_ accepted distinct
  · intro key entry item same
    rw [← Except.ok.inj same]
    exact named key entry
  · intro key entry item same
    rw [← Except.ok.inj same]
    exact records key entry

end Sections

theorem Instruction.madeOf_ofEntry (name : String) (fields : Members) :
    MadeOf name fields (ofEntry name fields) :=
  ⟨rfl, rfl, rfl, rfl⟩

theorem Splitter.madeOf_ofEntry (name : String) (entry : SplitterEntry) :
    MadeOf name entry (ofEntry name entry) :=
  ⟨rfl, rfl, FlagSet.lists_ofList entry.flags, rfl⟩

theorem Decoder.texts_of_patternOf {name : String} {entry : Option PatternEntry}
    {pattern : Option BitPattern} (parsed : patternOf name entry = .ok pattern) :
    pattern.map (·.texts) = entry := by
  cases entry with
  | none =>
    cases parsed
    rfl
  | some given =>
    cases made : BitPattern.ofTexts given.lo given.hi with
    | ok read =>
      simp only [patternOf, made, Except.ok.injEq] at parsed
      rw [← parsed, Option.map_some, BitPattern.texts_of_ofTexts made]
    | error fault =>
      simp only [patternOf, made] at parsed
      cases parsed

/-- The struct and the tag come from the instruction that is found, and that has been made of an
entry with the name. -/
theorem Decoder.madeOf_of_ofEntry {entries : Section Members} {instructions : List Instruction}
    (made : instructions = entries.map fun entry => Instruction.ofEntry entry.1 entry.2)
    {name : String} {entry : DecoderEntry} {decoder : Decoder}
    (ready : ofEntry instructions name entry = .ok decoder) : MadeOf name entry decoder := by
  obtain ⟨instruction, pattern, found, parsed, rfl⟩ := (ofEntry_eq_ok_iff _ _ _ _).mp ready
  have named : instruction.name = entry.instruction := by
    simpa using List.find?_some found
  obtain ⟨⟨key, fields⟩, _, rfl⟩ : ∃ given ∈ entries,
      Instruction.ofEntry given.1 given.2 = instruction := by
    rw [← List.mem_map, ← made]
    exact List.mem_of_find?_eq_some found
  have same : key = entry.instruction := named
  subst same
  exact {
    name := rfl
    instruction := rfl
    callback := rfl
    structName := rfl
    enumTag := rfl
    flags := FlagSet.lists_ofList entry.flags
    pattern := texts_of_patternOf parsed
    checked := fun _ here => by
      cases here
      rfl
    unchecked := fun none => by
      cases none
      rfl
    fields := rfl }

theorem Instruction.name_eq_of_equals {instruction other : Instruction}
    (same : instruction.equals other = true) : instruction.name = other.name := by
  simp only [equals, Bool.and_eq_true, decide_eq_true_eq, and_assoc] at same
  exact same.1

theorem Decoder.name_eq_of_equals {decoder other : Decoder}
    (same : decoder.equals other = true) : decoder.name = other.name := by
  simp only [equals, Bool.and_eq_true, decide_eq_true_eq, and_assoc] at same
  exact same.1

theorem Splitter.name_eq_of_equals {splitter other : Splitter}
    (same : splitter.equals other = true) : splitter.name = other.name := by
  simp only [equals, Bool.and_eq_true, decide_eq_true_eq, and_assoc] at same
  exact same.1

namespace IndexedTables

/-- What the catalogs have to do with a document. -/
structure Images (document : Document) (data : IndexedTables) : Prop where
  instructions : data.instructions.ImageOf document.instructions Instruction.MadeOf
  decoders : data.decoders.ImageOf document.decoders Decoder.MadeOf
  splitters : data.splitters.ImageOf document.splitters Splitter.MadeOf
  copied : ∀ decoder ∈ data.decoders.items, ∃ instruction,
    data.instructions.get decoder.instruction = .ok (some instruction) ∧
      decoder.structName = instruction.structName ∧ decoder.enumTag = instruction.enumTag

theorem images_ofTables {document : Document} {tables : Tables}
    (built : Tables.Built document tables) : Images document (ofTables tables) where
  instructions := Catalog.imageOf_ofItems_map (fun _ _ => rfl) Instruction.madeOf_ofEntry
    built.instructions built.distinctInstructions.names
  decoders := Catalog.imageOf_ofItems (fun _ _ _ made => (Decoder.madeOf_of_ofEntry
    built.instructions made).name) (fun _ _ _ => Decoder.madeOf_of_ofEntry built.instructions)
    built.decoders built.distinctDecoders.names
  splitters := Catalog.imageOf_ofItems_map (fun _ _ => rfl) Splitter.madeOf_ofEntry
    built.splitters built.distinctSplitters
  copied := by
    intro decoder member
    rw [ofTables, Catalog.items_ofItems] at member
    obtain ⟨entry, _, made⟩ := exists_of_map_ok built.decoders member
    obtain ⟨instruction, pattern, found, _, rfl⟩ := (Decoder.ofEntry_eq_ok_iff _ _ _ _).mp made
    have named : instruction.name = entry.2.instruction := by
      simpa using List.find?_some found
    refine ⟨instruction, ?_, rfl, rfl⟩
    rw [ofTables, Catalog.get_ofItems _ _ built.distinctInstructions.names, named]
    exact congrArg Except.ok found

/-- Catalogs are equal, with their indices, when their items are. -/
structure EqualByItems (data other : IndexedTables) : Prop where
  instructions : data.instructions.equals Instruction.equals other.instructions =
    data.instructions.items.isEqv other.instructions.items Instruction.equals
  decoders : data.decoders.equals Decoder.equals other.decoders =
    data.decoders.items.isEqv other.decoders.items Decoder.equals
  splitters : data.splitters.equals Splitter.equals other.splitters =
    data.splitters.items.isEqv other.splitters.items Splitter.equals

theorem equalByItems_ofTables {document : Document} {tables : Tables}
    (built : Tables.Built document tables) (others : Tables) :
    EqualByItems (ofTables tables) (ofTables others) where
  instructions := by
    simp only [ofTables, Catalog.items_ofItems]
    exact Catalog.equals_ofItems Instruction.name (fun _ _ => Instruction.name_eq_of_equals)
      built.distinctInstructions.names _
  decoders := by
    simp only [ofTables, Catalog.items_ofItems]
    exact Catalog.equals_ofItems Decoder.name (fun _ _ => Decoder.name_eq_of_equals)
      built.distinctDecoders.names _
  splitters := by
    simp only [ofTables, Catalog.items_ofItems]
    exact Catalog.equals_ofItems Splitter.name (fun _ _ => Splitter.name_eq_of_equals)
      built.distinctSplitters _

theorem build_eq_ok_iff (document : Document) (data : IndexedTables) :
    build document = .ok data ↔
      ∃ tables, Tables.Built document tables ∧ ofTables tables = data := by
  rw [build_eq, mapError_eq_ok_iff]
  simp only [← Tables.build_eq_ok_iff]
  cases Tables.build document with
  | ok tables => simp [Except.map]
  | error fault => simp [Except.map]

/-- Equality of the data is that of the tables: the indices make no difference. -/
theorem EqualByItems.equals_eq {data other : IndexedTables} (equal : EqualByItems data other)
    (proper : data.tables.Proper) (otherProper : other.tables.Proper) :
    data.equals other = data.tables.equals other.tables := by
  rw [Tables.equals_eq proper otherProper, equals, equal.instructions, equal.decoders,
    equal.splitters]
  rfl

/-- A build with indices ends as a build without, and no look-up leads out of a catalog. Its
catalogs are images of the sections of the document, and two of them are equal, indices included,
exactly when their items are. -/
theorem build_images (document : Document) :
    (build document).map (·.tables) = (Tables.build document).mapError .refused ∧
      ∀ data, build document = .ok data → Images document data ∧
        ∀ other others, build other = .ok others →
          EqualByItems data others ∧ data.equals others = data.tables.equals others.tables := by
  apply And.intro
  · rw [build_eq]
    cases Tables.build document with
    | ok tables => exact congrArg Except.ok (tables_ofTables tables)
    | error fault => rfl
  · intro data ready
    obtain ⟨tables, built, rfl⟩ := (build_eq_ok_iff document data).mp ready
    refine ⟨images_ofTables built, ?_⟩
    intro other others otherReady
    obtain ⟨otherTables, otherBuilt, rfl⟩ := (build_eq_ok_iff other others).mp otherReady
    have equal := equalByItems_ofTables built otherTables
    refine ⟨equal, equal.equals_eq ?_ ?_⟩
    · rw [tables_ofTables]
      exact built.proper
    · rw [tables_ofTables]
      exact otherBuilt.proper

/-- The decoders stand in another order than their instructions. -/
def crossedDocument : Document where
  instructions := [("mov_reg", []), ("add_reg", [])]
  decoders := [("add_reg_t1", ⟨"add_reg", ["s"], some ⟨"0001100xxxxxxxxx", none⟩, []⟩),
    ("mov_reg_t1", ⟨"mov_reg", ["b", "a"], some ⟨"01000110xxxxxxxx", none⟩, []⟩)]
  splitters := [("16bit_op01000", ⟨["s"], []⟩)]
  opcodes := [("01000", ⟨"16bit_op01000", []⟩), ("00011", ⟨"add_reg_t1", []⟩)]

theorem build_images_crossed :
    ∃ data others, build crossedDocument = .ok data ∧ build Tables.sampleDocument = .ok others ∧
      Images crossedDocument data ∧ EqualByItems data others ∧
      data.equals others = data.tables.equals others.tables := by
  obtain ⟨data, built⟩ : ∃ data, build crossedDocument = .ok data :=
    exists_ok_of_isOk (by decide +kernel)
  obtain ⟨others, otherBuilt⟩ : ∃ others, build Tables.sampleDocument = .ok others :=
    exists_ok_of_isOk (by decide +kernel)
  obtain ⟨images, equal⟩ := (build_images crossedDocument).2 data built
  exact ⟨data, others, built, otherBuilt, images, equal _ others otherBuilt⟩

end IndexedTables

end DecoderTables
