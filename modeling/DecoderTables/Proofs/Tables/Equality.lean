import DecoderTables.Proofs.Tables.View
import DecoderTables.Tables.Indexed

/-!
Tables are compared by their views. The views of two items of one kind are equal exactly when the
items are equal field by field, where the order of the members of extra fields does not count.
-/

namespace DecoderTables
open Json

@[simp]
theorem Json.Value.string_equals (text other : String) :
    (Value.string text).equals (.string other) = decide (text = other) := by
  rw [Value.equals, beq_eq_decide]

@[simp]
theorem Json.Value.array_equals (items others : List Value) :
    (Value.array items).equals (.array others) = Value.itemsEqual items others := by
  rw [Value.equals]

@[simp]
theorem Json.Value.bool_equals (value other : Bool) :
    (Value.bool value).equals (.bool other) = decide (value = other) := by
  rw [Value.equals, beq_eq_decide]

theorem Json.Value.itemsEqual_map {α : Type} {view : α → Value} {same : α → α → Bool}
    {items others : List α}
    (each : ∀ item ∈ items, ∀ other ∈ others, (view item).equals (view other) = same item other) :
    Value.itemsEqual (items.map view) (others.map view) = items.isEqv others same := by
  induction items generalizing others with
  | nil => cases others <;> rfl
  | cons item items ih =>
    cases others with
    | nil => rfl
    | cons other others =>
      have rest := ih fun a member b inside =>
        each a (List.mem_cons_of_mem _ member) b (List.mem_cons_of_mem _ inside)
      rw [List.map_cons, List.map_cons, Value.itemsEqual, List.isEqv_cons_cons, rest,
        each item List.mem_cons_self other List.mem_cons_self]

theorem Json.Value.natural_equals {m n : Nat} (small : m < 0x10000000000000000)
    (otherSmall : n < 0x10000000000000000) :
    (Value.natural m).equals (.natural n) = decide (m = n) := by
  rw [Bool.eq_iff_iff, decide_eq_true_eq]
  apply Iff.intro
  · intro same
    have numbers : Integer.natural m = Integer.natural n := of_decide_eq_true same
    exact Value.natural_inj small otherSmall (congrArg (Value.number ∘ Number.integer) numbers)
  · intro same
    rw [same]
    exact decide_eq_true rfl

/-- The second members start with some that have other names. -/
theorem Json.Value.membersIn_of_names {before members others : Members}
    (names : members.map (·.1) = others.map (·.1))
    (distinct : ((before ++ others).map (·.1)).Nodup) :
    Value.membersIn (before ++ others) members =
      Value.itemsEqual (members.map (·.2)) (others.map (·.2)) := by
  induction members generalizing before others with
  | nil =>
    rw [List.map_eq_nil_iff.mp names.symm]
    rfl
  | cons member members ih =>
    obtain ⟨name, x⟩ := member
    cases others with
    | nil => cases names
    | cons other others =>
      obtain ⟨otherName, y⟩ := other
      obtain ⟨same, rest⟩ := List.cons.inj names
      obtain rfl : name = otherName := same
      have fresh : before.lookup name = none := by
        rw [List.map_append, List.map_cons, List.nodup_middle, List.nodup_cons] at distinct
        rw [List.lookup_eq_none_iff]
        intro earlier member
        have different : name ≠ earlier.1 := fun same => distinct.1
          (List.mem_append_left _ (List.mem_map.mpr ⟨earlier, member, same.symm⟩))
        simpa using different
      have found : Members.get? (before ++ (name, y) :: others) name = some y := by
        rw [Members.get?, List.lookup_append, fresh, List.lookup_cons_self]
        rfl
      rw [Value.membersIn, found, List.append_cons, ih rest]
      · rfl
      · rwa [← List.append_cons]

/-- Objects with the same distinct names in the same order are compared value by value. -/
theorem Json.Value.object_equals {members others : Members}
    (names : members.map (·.1) = others.map (·.1)) (distinct : (others.map (·.1)).Nodup) :
    (Value.object members).equals (.object others) =
      Value.itemsEqual (members.map (·.2)) (others.map (·.2)) := by
  have lengths := congrArg List.length names
  rw [List.length_map, List.length_map] at lengths
  have each : Value.membersIn ([] ++ others) members = _ := membersIn_of_names names distinct
  rw [Value.equals, lengths, beq_self_eq_true, Bool.true_and]
  exact each

theorem isEqv_decide_eq {α : Type} [DecidableEq α] (items others : List α) :
    items.isEqv others (fun item other => decide (item = other)) = decide (items = others) := by
  rw [Bool.eq_iff_iff, decide_eq_true_eq]
  exact iff_of_eq List.isEqv_eq

theorem HalfPattern.eq_iff_text_eq (pattern other : HalfPattern) :
    pattern = other ↔ pattern.text = other.text :=
  ⟨congrArg HalfPattern.text, eq_of_text_eq⟩

theorem Half.eq_iff_name_eq (half other : Half) : half = other ↔ half.name = other.name :=
  ⟨congrArg Half.name, name_inj⟩

theorem EntryKind.eq_iff_name_eq (kind other : EntryKind) : kind = other ↔ kind.name = other.name :=
  ⟨congrArg EntryKind.name, name_inj⟩

theorem BitPattern.toJson_equals (pattern other : BitPattern) :
    pattern.toJson.equals other.toJson = decide (pattern = other) := by
  obtain ⟨lo, hi⟩ := pattern
  obtain ⟨otherLo, otherHi⟩ := other
  cases hi with
  | none =>
    cases otherHi with
    | none => simp [toJson, Value.object_equals, Value.itemsEqual, HalfPattern.eq_iff_text_eq]
    | some _ => simp [toJson, Value.equals]
  | some hi =>
    cases otherHi with
    | none => simp [toJson, Value.equals]
    | some otherHi =>
      simp [toJson, Value.object_equals, Value.itemsEqual, HalfPattern.eq_iff_text_eq]

theorem Predicate.toJson_equals {predicate other : Predicate} (proper : predicate.check.Proper)
    (otherProper : other.check.Proper) :
    predicate.toJson.equals other.toJson = decide (predicate = other) := by
  obtain ⟨half, check⟩ := predicate
  obtain ⟨otherHalf, otherCheck⟩ := other
  obtain ⟨ordered, within⟩ := proper
  obtain ⟨otherOrdered, otherWithin⟩ := otherProper
  cases check with
  | bit place value =>
    cases otherCheck with
    | bit otherPlace otherValue =>
      simp only [Check.high] at within otherWithin
      have places := Value.natural_equals (m := place) (n := otherPlace) (by omega) (by omega)
      simp [toJson, Value.object_equals, Value.itemsEqual, Half.eq_iff_name_eq, places]
    | range _ _ _ => simp [toJson, Value.equals]
  | range high low literal =>
    cases otherCheck with
    | bit _ _ => simp [toJson, Value.equals]
    | range otherHigh otherLow otherLiteral =>
      simp only [Check.high, Check.low] at ordered within otherOrdered otherWithin
      have highs := Value.natural_equals (m := high) (n := otherHigh) (by omega) (by omega)
      have lows := Value.natural_equals (m := low) (n := otherLow) (by omega) (by omega)
      simp [toJson, Value.object_equals, Value.itemsEqual, Half.eq_iff_name_eq, highs, lows]

namespace Tables

theorem strings_equals (texts others : List String) :
    (strings texts).equals (strings others) = decide (texts = others) := by
  rw [← isEqv_decide_eq]
  exact Value.itemsEqual_map fun _ _ _ _ => rfl

theorem entryJson_equals (entry other : SelectorEntry) :
    (entryJson entry).equals (entryJson other) = entry.equals other := by
  have indices : (Value.natural entry.index.toNat).equals (.natural other.index.toNat) =
      decide (entry.index = other.index) := by
    have small := entry.index.toNat_lt
    have otherSmall := other.index.toNat_lt
    rw [Value.natural_equals (by omega) (by omega)]
    simp [UInt8.toNat_inj]
  simp [entryJson, Value.object_equals, Value.itemsEqual, SelectorEntry.equals, Members.equals,
    Bool.and_assoc, strings_equals, indices, EntryKind.eq_iff_name_eq]

theorem decoderJson_equals {decoder other : Decoder}
    (proper : ∀ predicate ∈ decoder.predicates, predicate.check.Proper)
    (otherProper : ∀ predicate ∈ other.predicates, predicate.check.Proper) :
    (decoderJson decoder).equals (decoderJson other) = decoder.equals other := by
  have predicates : Value.itemsEqual (decoder.predicates.map (·.toJson))
      (other.predicates.map (·.toJson)) = decide (decoder.predicates = other.predicates) := by
    rw [← isEqv_decide_eq]
    exact Value.itemsEqual_map fun predicate member another inside =>
      Predicate.toJson_equals (proper predicate member) (otherProper another inside)
  unfold decoderJson Decoder.equals
  -- a view has a member more if there is a pattern
  cases pattern : decoder.pattern with
  | none =>
    cases otherPattern : other.pattern with
    | none =>
      simp [Value.object_equals, Value.itemsEqual, Members.equals, Bool.and_assoc, strings_equals,
        predicates]
    | some _ => simp [Value.equals]
  | some _ =>
    cases otherPattern : other.pattern with
    | none => simp [Value.equals]
    | some _ =>
      simp [Value.object_equals, Value.itemsEqual, Members.equals, Bool.and_assoc, strings_equals,
        predicates, BitPattern.toJson_equals]

theorem splitterJson_equals (splitter other : Splitter) :
    (splitterJson splitter).equals (splitterJson other) = splitter.equals other := by
  simp [splitterJson, Value.object_equals, Value.itemsEqual, Splitter.equals, Members.equals,
    Bool.and_assoc, strings_equals]

theorem instructionJson_equals (instruction other : Instruction) :
    (instructionJson instruction).equals (instructionJson other) = instruction.equals other := by
  simp [instructionJson, Value.object_equals, Value.itemsEqual, Instruction.equals, Members.equals,
    Bool.and_assoc]

/-- Tables are equal when their lists are, item by item. -/
theorem equals_eq {tables others : Tables} (proper : tables.Proper) (otherProper : others.Proper) :
    tables.equals others =
      (tables.opcodes.isEqv others.opcodes SelectorEntry.equals &&
        tables.decoders.isEqv others.decoders Decoder.equals &&
        tables.splitters.isEqv others.splitters Splitter.equals &&
        tables.instructions.isEqv others.instructions Instruction.equals) := by
  have opcodes : Value.itemsEqual (tables.opcodes.map entryJson) (others.opcodes.map entryJson) =
      tables.opcodes.isEqv others.opcodes SelectorEntry.equals :=
    Value.itemsEqual_map fun entry _ other _ => entryJson_equals entry other
  have decoders : Value.itemsEqual (tables.decoders.map decoderJson)
      (others.decoders.map decoderJson) =
        tables.decoders.isEqv others.decoders Decoder.equals :=
    Value.itemsEqual_map fun decoder member other inside =>
      decoderJson_equals (proper decoder member) (otherProper other inside)
  have splitters : Value.itemsEqual (tables.splitters.map splitterJson)
      (others.splitters.map splitterJson) =
        tables.splitters.isEqv others.splitters Splitter.equals :=
    Value.itemsEqual_map fun splitter _ other _ => splitterJson_equals splitter other
  have instructions : Value.itemsEqual (tables.instructions.map instructionJson)
      (others.instructions.map instructionJson) =
        tables.instructions.isEqv others.instructions Instruction.equals :=
    Value.itemsEqual_map fun instruction _ other _ => instructionJson_equals instruction other
  simp [equals, toJson, Value.object_equals, Value.itemsEqual, Bool.and_assoc, opcodes, decoders,
    splitters, instructions]

end Tables

end DecoderTables
