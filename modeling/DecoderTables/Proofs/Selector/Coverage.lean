import DecoderTables.Proofs.Tables.Built

/-!
The selector table covers all values, and uses each opcode of the document once.
-/

namespace DecoderTables

/-- What the selector table shows of a decoder or a splitter. -/
structure Callee where
  kind : EntryKind
  callback : String
  flags : List String

namespace Tables

/-- All decoders and splitters of a name. -/
def callees (tables : Tables) (name : String) : List Callee :=
  (tables.decoders.filter (·.name = name)).map
      (fun decoder => ⟨.decoder, decoder.callback, decoder.flags⟩) ++
    (tables.splitters.filter (·.name = name)).map
      (fun splitter => ⟨.splitter, splitter.callback, splitter.flags⟩)

theorem kind_ne_invalid_of_mem_callees {tables : Tables} {name : String} {callee : Callee}
    (member : callee ∈ tables.callees name) : callee.kind ≠ .invalid := by
  rcases List.mem_append.mp member with decoder | splitter
  · obtain ⟨_, _, rfl⟩ := List.mem_map.mp decoder
    exact EntryKind.noConfusion
  · obtain ⟨_, _, rfl⟩ := List.mem_map.mp splitter
    exact EntryKind.noConfusion

/-- The entry of a selector value is that of the only decoder or splitter that the opcode of its
key refers to, or an invalid one if there is no such opcode. -/
structure Covers (document : Document) (tables : Tables) (index : Nat) (entry : SelectorEntry) :
    Prop where
  number : entry.index.toNat = index
  bin : entry.bin = String.ofList (binaryDigits 5 index)
  used : ∀ opcode, (entry.bin, opcode) ∈ document.opcodes →
    tables.callees opcode.decoder = [⟨entry.kind, entry.callback, entry.flags⟩] ∧
      entry.fields = opcode.fields
  unused : entry.bin ∉ document.opcodes.map (·.1) →
    entry.kind = .invalid ∧ entry.callback = "InvalidInstrDecoder" ∧ entry.flags = [] ∧
      entry.fields = []

theorem toNat_ofNat_of_lt (index : Nat) (bound : index < 32) :
    (UInt8.ofNat index).toNat = index := by
  rw [UInt8.toNat_ofNat']
  omega

namespace Built

variable {document : Document} {tables : Tables}

theorem callees_eq (built : Built document tables) (name : String) :
    tables.callees name =
      (Decoder.find? tables.decoders name).toList.map
          (fun decoder => ⟨.decoder, decoder.callback, decoder.flags⟩) ++
        (Splitter.find? tables.splitters name).toList.map
          (fun splitter => ⟨.splitter, splitter.callback, splitter.flags⟩) := by
  unfold callees
  rw [filter_key_eq Decoder.name tables.decoders built.distinctDecoders.names,
    filter_key_eq Splitter.name tables.splitters built.distinctSplitters]
  rfl

theorem length_opcodes (built : Built document tables) : tables.opcodes.length = 32 := by
  have lengths := congrArg List.length built.opcodes
  rw [List.length_map, List.length_map, List.length_range] at lengths
  exact lengths.symm

theorem resolve_getElem (built : Built document tables) (index : Nat)
    (bound : index < tables.opcodes.length) :
    Selector.resolve document.opcodes tables.decoders tables.splitters index =
      .ok tables.opcodes[index] := by
  have inside : index < 32 := built.length_opcodes ▸ bound
  have here := congrArg (·[index]?) built.opcodes
  simpa [Selector.count, Selector.width, inside, bound] using here

/-- An entry made from the opcode of its key and from the only item that the opcode refers to. -/
theorem covers_of_callee (built : Built document tables) (index : Nat) (bound : index < 32)
    (opcode : OpcodeEntry) (callee : Callee)
    (present : document.opcodes.reverse.lookup (Selector.binary index) = some opcode)
    (only : tables.callees opcode.decoder = [callee]) :
    Covers document tables index ⟨.ofNat index, Selector.binary index, callee.kind,
      callee.callback, callee.flags, opcode.fields⟩ := by
  have unique := Selector.lookup_reverse_eq_some_iff document.opcodes built.distinctKeys
    (Selector.binary index)
  refine ⟨toNat_ofNat_of_lt index bound, Selector.binary_eq index bound, ?_, ?_⟩
  · intro other member
    have same := present.symm.trans ((unique other).mpr member)
    obtain rfl : opcode = other := Option.some.inj same
    exact ⟨only, rfl⟩
  · intro missing
    exact absurd (List.mem_map_of_mem ((unique opcode).mp present)) missing

theorem covers_of_resolve (built : Built document tables) (index : Nat) (bound : index < 32)
    (entry : SelectorEntry)
    (resolved : Selector.resolve document.opcodes tables.decoders tables.splitters index =
      .ok entry) : Covers document tables index entry := by
  rcases (Selector.resolve_eq_ok_iff _ _ _ _ _).mp resolved with
    ⟨absent, rfl⟩ | ⟨opcode, decoder, present, decoderFound, splitterFound, rfl⟩ |
      ⟨opcode, splitter, present, decoderFound, splitterFound, rfl⟩
  · have missing := (Selector.lookup_reverse_eq_none_iff document.opcodes _).mp absent
    exact ⟨toNat_ofNat_of_lt index bound, Selector.binary_eq index bound,
      fun opcode member => absurd (List.mem_map_of_mem member) missing,
      fun _ => ⟨rfl, rfl, rfl, rfl⟩⟩
  · have only : tables.callees opcode.decoder =
        [⟨.decoder, decoder.callback, decoder.flags⟩] := by
      rw [built.callees_eq, decoderFound, splitterFound]
      rfl
    exact built.covers_of_callee index bound opcode _ present only
  · have only : tables.callees opcode.decoder =
        [⟨.splitter, splitter.callback, splitter.flags⟩] := by
      rw [built.callees_eq, decoderFound, splitterFound]
      rfl
    exact built.covers_of_callee index bound opcode _ present only

theorem covers_getElem (built : Built document tables) (index : Nat)
    (bound : index < tables.opcodes.length) :
    Covers document tables index tables.opcodes[index] :=
  built.covers_of_resolve index (built.length_opcodes ▸ bound) _ (built.resolve_getElem index bound)

theorem nodup_bins (built : Built document tables) : (tables.opcodes.map (·.bin)).Nodup := by
  have bins : tables.opcodes.map (·.bin) = (List.range 32).map Selector.binary := by
    apply List.ext_getElem
    · simp [built.length_opcodes]
    · intro index bound inside
      rw [List.length_map] at bound inside
      rw [List.length_range] at inside
      rw [List.getElem_map, List.getElem_map, List.getElem_range, Selector.binary_eq index inside]
      exact (built.covers_getElem index bound).bin
  rw [bins]
  apply List.Nodup.map_on _ List.nodup_range
  intro first _ second _ same
  exact Selector.binary_injective same

theorem mem_used_bins_iff (built : Built document tables) (key : String) :
    key ∈ (tables.opcodes.filter (·.kind ≠ .invalid)).map (·.bin) ↔
      key ∈ document.opcodes.map (·.1) := by
  apply Iff.intro
  · intro used
    obtain ⟨entry, member, rfl⟩ := List.mem_map.mp used
    obtain ⟨inside, valid⟩ := List.mem_filter.mp member
    obtain ⟨index, bound, rfl⟩ := List.mem_iff_getElem.mp inside
    by_contra missing
    have invalid := ((built.covers_getElem index bound).unused missing).1
    simp [invalid] at valid
  · intro known
    obtain ⟨index, bound, rfl⟩ := (Selector.isKey_iff key).mp (built.keys key known)
    have inside : index < tables.opcodes.length := built.length_opcodes.symm ▸ bound
    have covers := built.covers_getElem index inside
    have bin := covers.bin
    rw [← Selector.binary_eq index bound] at bin
    obtain ⟨⟨_, opcode⟩, member, rfl⟩ := List.mem_map.mp known
    have callees := (covers.used opcode (bin ▸ member)).1
    have kind : tables.opcodes[index].kind ≠ .invalid :=
      kind_ne_invalid_of_mem_callees (by rw [callees]; exact List.mem_singleton_self _)
    refine List.mem_map.mpr ⟨tables.opcodes[index], List.mem_filter.mpr ⟨?_, ?_⟩, bin⟩
    · exact List.getElem_mem inside
    · exact decide_eq_true kind

theorem used_bins_perm (built : Built document tables) :
    ((tables.opcodes.filter (·.kind ≠ .invalid)).map (·.bin)).Perm
      (document.opcodes.map (·.1)) := by
  apply (List.perm_ext_iff_of_nodup _ built.distinctKeys).mpr built.mem_used_bins_iff
  exact built.nodup_bins.sublist (List.filter_sublist.map _)

end Built

/-- Each entry is of one of the three kinds. -/
theorem countIn_add_countIn (entries : List SelectorEntry) :
    EntryKind.decoder.countIn entries + EntryKind.splitter.countIn entries +
      EntryKind.invalid.countIn entries = entries.length := by
  unfold EntryKind.countIn
  induction entries with
  | nil => rfl
  | cons entry entries ih =>
    rw [List.countP_cons, List.countP_cons, List.countP_cons, List.length_cons, ← ih]
    cases entry.kind with
    | decoder => simp; omega
    | splitter => simp; omega
    | invalid => simp; omega

/-- The table of a successful build has one entry for each of the 32 values in ascending order, and
its valid entries are the opcodes of the document, each of them once. -/
theorem covers_opcodes {document : Document} {tables : Tables}
    (built : build document = .ok tables) :
    tables.opcodes.length = 32 ∧
      (∀ index entry, tables.opcodes[index]? = some entry →
        Covers document tables index entry) ∧
      ((tables.opcodes.filter (·.kind ≠ .invalid)).map (·.bin)).Perm
        (document.opcodes.map (·.1)) ∧
      (tables.opcodes.filter (·.kind ≠ .invalid)).length = document.opcodes.length ∧
      EntryKind.decoder.countIn tables.opcodes + EntryKind.splitter.countIn tables.opcodes +
        EntryKind.invalid.countIn tables.opcodes = 32 := by
  have parts := (build_eq_ok_iff document tables).mp built
  have perm := parts.used_bins_perm
  refine ⟨parts.length_opcodes, ?_, perm, ?_, ?_⟩
  · intro index entry found
    obtain ⟨bound, rfl⟩ := List.getElem?_eq_some_iff.mp found
    exact parts.covers_getElem index bound
  · simpa using perm.length_eq
  · rw [countIn_add_countIn, parts.length_opcodes]

theorem covers_opcodes_sample :
    ∃ tables, build sampleDocument = .ok tables ∧
      tables.opcodes.length = 32 ∧
      (∀ index entry, tables.opcodes[index]? = some entry →
        Covers sampleDocument tables index entry) ∧
      ((tables.opcodes.filter (·.kind ≠ .invalid)).map (·.bin)).Perm ["01000", "00000"] ∧
      (tables.opcodes.filter (·.kind ≠ .invalid)).length = 2 ∧
      EntryKind.decoder.countIn tables.opcodes + EntryKind.splitter.countIn tables.opcodes +
        EntryKind.invalid.countIn tables.opcodes = 32 := by
  obtain ⟨tables, built⟩ := exists_build_sample
  exact ⟨tables, built, covers_opcodes built⟩

end Tables

end DecoderTables
