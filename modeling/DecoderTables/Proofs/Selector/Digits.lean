import DecoderTables.Proofs.Selector.Resolution
import DecoderTables.Proofs.Text.Bytes

/-!
Numbers in base two, and the keys of opcodes among them. Any number is written with the digits that
it has, and with zeros in front of fewer than five; the keys are what is written of the selector
values. A key decides on exactly one value of the table, and a text that is no key on none.
-/

namespace DecoderTables

namespace Selector

/-! Digits. -/

theorem isDigits_binary (index : Nat) : IsDigits (binary index).toList := by
  rw [toList_binary]
  exact isDigits_binaryDigits _ index

theorem length_binary (index : Nat) :
    (binary index).toList.length = max 5 (index.log2 + 1) := by
  rw [toList_binary, length_binaryDigits]

/-! Keys by their bytes. -/

theorem isDigits_iff_bytes (text : List Char) :
    IsDigits text ↔ ∀ byte ∈ Text.bytes text, byte = 0x30 ∨ byte = 0x31 := by
  apply Iff.intro
  · intro only byte member
    obtain ⟨c, listed, encoded⟩ := List.mem_flatMap.mp member
    rcases only c listed with rfl | rfl
    · exact .inl (List.mem_singleton.mp encoded)
    · exact .inr (List.mem_singleton.mp encoded)
  · intro only c listed
    have positive : 0 < (String.utf8EncodeChar c).length := by
      rw [String.length_utf8EncodeChar]
      exact c.utf8Size_pos
    obtain ⟨byte, encoded⟩ := List.exists_mem_of_length_pos positive
    have ascii : byte.toNat < 128 → c.toNat = byte.toNat := fun small =>
      Text.toNat_eq_of_mem_utf8EncodeChar small encoded
    rcases only byte (List.mem_flatMap.mpr ⟨c, listed, encoded⟩) with rfl | rfl
    · exact .inl (Char.toNat_inj.mp (ascii (by decide)))
    · exact .inr (Char.toNat_inj.mp (ascii (by decide)))

/-- Five bytes, each of them a digit: then no character has more than one byte. -/
theorem isKey_iff_bytes (key : String) :
    isKey key = true ↔
      key.toUTF8.size = 5 ∧ ∀ byte ∈ key.toUTF8.data.toList, byte = 0x30 ∨ byte = 0x31 := by
  have encoded : key.toUTF8.data.toList = Text.bytes key.toList := by
    rw [Text.toUTF8_eq, List.data_toByteArray]
  have size : key.toUTF8.size = Text.utf8Length key.toList := by
    rw [Text.toUTF8_eq, List.size_toByteArray, Text.length_bytes]
  rw [isKey_iff_isKeyText, encoded, size, ← isDigits_iff_bytes]
  apply and_congr_left
  intro only
  rw [utf8Length_isDigits _ only]

/-! Keys in the table. -/

/-- An opcode under the key can change what a value is resolved to. -/
def Consults (index : Nat) (key : String) : Prop :=
  ∃ (before after : Section OpcodeEntry) (opcode : OpcodeEntry) (decoders : List Decoder)
    (splitters : List Splitter),
    resolve (before ++ (key, opcode) :: after) decoders splitters index ≠
      resolve (before ++ after) decoders splitters index

theorem lookup_reverse_remove {key other : String} (differs : other ≠ key)
    (before after : Section OpcodeEntry) (opcode : OpcodeEntry) :
    (before ++ (key, opcode) :: after).reverse.lookup other =
      (before ++ after).reverse.lookup other := by
  have missed : List.lookup other [(key, opcode)] = none := by
    rw [List.lookup_cons, beq_false_of_ne differs]
    rfl
  rw [List.reverse_append, List.reverse_append, List.reverse_cons, List.lookup_append,
    List.lookup_append, List.lookup_append, missed, Option.or_none]

theorem consults_iff (index : Nat) (key : String) : Consults index key ↔ key = binary index := by
  apply Iff.intro
  · intro consulted
    obtain ⟨before, after, opcode, decoders, splitters, differs⟩ := consulted
    by_contra other
    apply differs
    rw [resolve, resolve, lookup_reverse_remove (Ne.symm other)]
  · intro same
    subst same
    refine ⟨[], [], ⟨"", []⟩, [], [], ?_⟩
    simp [resolve, Decoder.find?, Splitter.find?]

/-- Every number reads back from its digits, of which there are at least five. The keys are the
digits of the numbers below 32, and each key decides on exactly one value of the table, while no
other text decides on any. -/
theorem keys_are_binary :
    (∀ index, IsDigits (binary index).toList ∧
      (binary index).toList.length = max 5 (index.log2 + 1) ∧
      binaryDigits? (binary index).toList = some index) ∧
    ∀ key,
      (isKey key = true ↔
        key.toUTF8.size = 5 ∧ ∀ byte ∈ key.toUTF8.data.toList, byte = 0x30 ∨ byte = 0x31) ∧
      (isKey key = true ↔ ∃ index < 32, key = binary index) ∧
      (isKey key = true ↔ ∃! index, index < 32 ∧ key = binary index) ∧
      (isKey key = true ↔ ∃! index, index ∈ List.range count ∧ Consults index key) ∧
      (isKey key = false ↔ ∀ index ∈ List.range count, ¬Consults index key) := by
  refine ⟨fun index => ⟨isDigits_binary index, length_binary index, binaryDigits?_binary index⟩, ?_⟩
  intro key
  have once : (∃ index < 32, key = binary index) ↔ ∃! index, index < 32 ∧ key = binary index := by
    apply Iff.intro
    · intro given
      obtain ⟨index, bound, same⟩ := given
      refine ⟨index, ⟨bound, same⟩, ?_⟩
      intro other found
      exact binary_injective (found.2.symm.trans same)
    · exact ExistsUnique.exists
  have steps : ∀ index, index ∈ List.range count ∧ Consults index key ↔
      index < 32 ∧ key = binary index := by
    intro index
    rw [consults_iff, List.mem_range]
    rfl
  have known := isKey_iff key
  refine ⟨isKey_iff_bytes key, known, known.trans once, ?_, ?_⟩
  · simp only [steps]
    exact known.trans once
  · rw [← Bool.not_eq_true, known]
    simp only [consults_iff, List.mem_range, not_exists, not_and]
    rfl

end Selector

end DecoderTables
