import DecoderTables.Proofs.BinaryDigits
import DecoderTables.Proofs.Catalog.Accepted
import DecoderTables.Selector

/-!
Keys of opcodes. The keys are the binary digits of the selector values, each value has one key, and
a resolved value shows what its key refers to.
-/

namespace DecoderTables

theorem binaryDigits_width_zero (width : Nat) :
    binaryDigits width 0 = List.replicate width '0' := by
  apply List.eq_replicate_iff.mpr
  refine ⟨length_binaryDigits width 0, ?_⟩
  intro c member
  obtain ⟨place, _, rfl⟩ := List.mem_map.mp member
  simp [binaryDigit]

theorem digitChar_mod_two (value : Nat) :
    (value % 2).digitChar = binaryDigit (value.testBit 0) := by
  rw [Nat.testBit_zero]
  rcases Nat.mod_two_eq_zero_or_one value with even | odd
  · rw [even]
    rfl
  · rw [odd]
    rfl

theorem leftpad_append_singleton {α : Type} (width : Nat) (fill : α) (items : List α) (last : α) :
    (items ++ [last]).leftpad (width + 1) fill = items.leftpad width fill ++ [last] := by
  simp [List.leftpad]

/-- Filled up with zeros, the shortest digits of a number are its digits of that width. -/
theorem leftpad_toDigits_two (width value : Nat) (bound : value < 2 ^ (width + 1)) :
    (Nat.toDigits 2 value).leftpad (width + 1) '0' = binaryDigits (width + 1) value := by
  induction width generalizing value with
  | zero =>
    rcases (by omega : value = 0 ∨ value = 1) with rfl | rfl
    · rfl
    · rfl
  | succ width ih =>
    have half : value / 2 < 2 ^ (width + 1) := by
      rw [Nat.pow_succ] at bound
      omega
    rw [binaryDigits_succ]
    by_cases small : value < 2
    · have quotient : value / 2 = 0 := by omega
      have digit := digitChar_mod_two value
      rw [Nat.mod_eq_of_lt small] at digit
      rw [Nat.toDigits_of_lt_base small, quotient, digit, binaryDigits_width_zero]
      rfl
    · rw [Nat.toDigits_of_base_le (by decide) (by omega), leftpad_append_singleton, ih _ half,
        digitChar_mod_two]

theorem length_toDigits_two (value : Nat) :
    (Nat.toDigits 2 value).length = value.log2 + 1 := by
  have fits : ∀ width, 0 < width → ((Nat.toDigits 2 value).length ≤ width ↔ value < 2 ^ width) :=
    fun _ positive => Nat.length_toDigits_le_iff (by decide) positive
  have enough := (fits (value.log2 + 1) (Nat.succ_pos _)).mpr Nat.lt_log2_self
  have positive := List.length_pos_iff.mpr (Nat.toDigits_ne_nil (b := 2) (n := value))
  apply Nat.le_antisymm enough
  apply Nat.lt_of_not_le
  intro short
  have below := (fits value.log2 (by omega)).mp short
  have nonzero : value ≠ 0 := by
    intro zero
    rw [zero] at short positive
    exact absurd (Nat.lt_of_lt_of_le positive short) (by decide)
  exact absurd (Nat.log2_self_le nonzero) (Nat.not_le.mpr below)

namespace Selector

theorem toList_binary (index : Nat) :
    (binary index).toList = binaryDigits (max 5 (index.log2 + 1)) index := by
  have length := length_toDigits_two index
  obtain ⟨last, enough⟩ : ∃ last, max 5 (index.log2 + 1) = last + 1 :=
    Nat.exists_eq_add_one.mpr (by omega)
  have bound : index < 2 ^ (last + 1) :=
    Nat.lt_of_lt_of_le Nat.lt_log2_self (Nat.pow_le_pow_right (by decide) (by omega))
  have zeros : 5 - (Nat.toDigits 2 index).length = last + 1 - (Nat.toDigits 2 index).length := by
    omega
  calc (binary index).toList
      = (Nat.toDigits 2 index).leftpad 5 '0' := String.toList_ofList
    _ = (Nat.toDigits 2 index).leftpad (last + 1) '0' := by rw [List.leftpad, List.leftpad, zeros]
    _ = binaryDigits (last + 1) index := leftpad_toDigits_two last index bound
    _ = binaryDigits (max 5 (index.log2 + 1)) index := by rw [enough]

theorem binary_eq (index : Nat) (bound : index < 32) :
    binary index = String.ofList (binaryDigits 5 index) :=
  congrArg String.ofList (leftpad_toDigits_two 4 index bound)

theorem binaryDigits?_binary (index : Nat) :
    binaryDigits? (binary index).toList = some index := by
  rw [toList_binary]
  apply binaryDigits?_binaryDigits
  exact Nat.lt_of_lt_of_le Nat.lt_log2_self
    (Nat.pow_le_pow_right (by decide) (Nat.le_max_right _ _))

theorem binary_injective {first second : Nat} (same : binary first = binary second) :
    first = second := by
  apply Option.some.inj
  rw [← binaryDigits?_binary first, same, binaryDigits?_binary]

theorem isKey_iff (key : String) : isKey key = true ↔ ∃ index < 32, key = binary index := by
  apply Iff.intro
  · intro valid
    simp only [isKey, Bool.and_eq_true, decide_eq_true_eq, List.all_eq_true, Bool.or_eq_true]
      at valid
    obtain ⟨length, only⟩ := valid
    obtain ⟨index, bound, same⟩ := exists_eq_binaryDigits key.toList only
    rw [length, width] at bound same
    exact ⟨index, bound, by rw [binary_eq index bound, ← same, String.ofList_toList]⟩
  · intro given
    obtain ⟨index, bound, rfl⟩ := given
    rw [binary_eq index bound]
    simp only [isKey, String.toList_ofList, length_binaryDigits, width, decide_true, Bool.true_and,
      List.all_eq_true, Bool.or_eq_true, decide_eq_true_eq]
    exact isDigits_binaryDigits 5 index

theorem checkKeys_eq_ok_iff (before keys : List String) :
    checkKeys before keys = .ok () ↔
      (∀ key ∈ keys, isKey key = true) ∧ keys.Nodup ∧ ∀ key ∈ keys, key ∉ before := by
  induction keys generalizing before with
  | nil => simp [checkKeys]
  | cons key keys ih =>
    rw [checkKeys, List.forall_mem_cons, List.forall_mem_cons, List.nodup_cons]
    by_cases valid : isKey key = true
    · by_cases repeated : key ∈ before
      · simp [valid, repeated]
      · simp only [valid, Bool.not_true, Bool.false_eq_true, ↓reduceIte, repeated,
          not_false_eq_true, true_and, ih]
        apply Iff.intro
        · intro given
          obtain ⟨all, distinct, fresh⟩ := given
          exact ⟨all, ⟨fun member => fresh key member List.mem_cons_self, distinct⟩,
            fun other member => fun known => fresh other member (List.mem_cons_of_mem _ known)⟩
        · intro given
          obtain ⟨all, ⟨new, distinct⟩, fresh⟩ := given
          refine ⟨all, distinct, ?_⟩
          intro other member known
          rcases List.mem_cons.mp known with rfl | earlier
          · exact new member
          · exact fresh other member earlier
    · simp [valid]

theorem intake_eq_ok_iff (opcodes : Section OpcodeEntry) (decoders : List Decoder)
    (splitters : List Splitter) (entries : List SelectorEntry) :
    (intake opcodes decoders splitters).result = .ok entries ↔
      (List.range count).map (resolve opcodes decoders splitters) = entries.map .ok := by
  rw [intake, takeIn_eq_ok_iff (resolve opcodes decoders splitters) (fun _ => True) trivial
    (fun _ _ _ => trivial) (fun _ _ _ _ => by simp)]
  simp

/-- With distinct keys it does not matter which opcode of a key counts. -/
theorem lookup_reverse_eq_some_iff (opcodes : Section OpcodeEntry)
    (distinct : (opcodes.map (·.1)).Nodup) (key : String) (opcode : OpcodeEntry) :
    opcodes.reverse.lookup key = some opcode ↔ (key, opcode) ∈ opcodes := by
  apply Iff.intro
  · intro found
    obtain ⟨before, after, split, _⟩ := List.lookup_eq_some_iff.mp found
    rw [← List.mem_reverse, split]
    simp
  · intro member
    cases found : opcodes.reverse.lookup key with
    | none =>
      rw [List.lookup_eq_none_iff] at found
      simpa using found (key, opcode) (List.mem_reverse.mpr member)
    | some other =>
      obtain ⟨before, after, split, _⟩ := List.lookup_eq_some_iff.mp found
      have otherMember : (key, other) ∈ opcodes := by
        rw [← List.mem_reverse, split]
        simp
      have same := List.inj_on_of_nodup_map distinct otherMember member rfl
      rw [(Prod.mk.inj same).2]

theorem lookup_reverse_eq_none_iff (opcodes : Section OpcodeEntry) (key : String) :
    opcodes.reverse.lookup key = none ↔ key ∉ opcodes.map (·.1) := by
  rw [List.lookup_eq_none_iff, List.mem_map]
  apply Iff.intro
  · intro absent known
    obtain ⟨entry, member, rfl⟩ := known
    simpa using absent entry (List.mem_reverse.mpr member)
  · intro absent entry member
    rw [bne_iff_ne]
    intro same
    exact absent ⟨entry, List.mem_reverse.mp member, same.symm⟩

/-- The three ways through the resolution of a value that end without a fault. -/
theorem resolve_eq_ok_iff (opcodes : Section OpcodeEntry) (decoders : List Decoder)
    (splitters : List Splitter) (index : Nat) (entry : SelectorEntry) :
    resolve opcodes decoders splitters index = .ok entry ↔
      (opcodes.reverse.lookup (binary index) = none ∧ entry = invalidEntry index) ∨
      (∃ opcode decoder, opcodes.reverse.lookup (binary index) = some opcode ∧
        Decoder.find? decoders opcode.decoder = some decoder ∧
        Splitter.find? splitters opcode.decoder = none ∧
        entry = ⟨.ofNat index, binary index, .decoder, decoder.callback, decoder.flags,
          opcode.fields⟩) ∨
      (∃ opcode splitter, opcodes.reverse.lookup (binary index) = some opcode ∧
        Decoder.find? decoders opcode.decoder = none ∧
        Splitter.find? splitters opcode.decoder = some splitter ∧
        entry = ⟨.ofNat index, binary index, .splitter, splitter.callback, splitter.flags,
          opcode.fields⟩) := by
  unfold resolve
  cases opcodes.reverse.lookup (binary index) with
  | none => simp [eq_comm]
  | some opcode =>
    cases decoderFound : Decoder.find? decoders opcode.decoder with
    | none =>
      cases splitterFound : Splitter.find? splitters opcode.decoder with
      | none => simp [decoderFound, splitterFound]
      | some splitter => simp [decoderFound, splitterFound, eq_comm]
    | some decoder =>
      cases splitterFound : Splitter.find? splitters opcode.decoder with
      | none => simp [decoderFound, splitterFound, eq_comm]
      | some splitter => simp [decoderFound, splitterFound]

end Selector

end DecoderTables
