import DecoderTables.Catalog.Splitter
import DecoderTables.Proofs.Results
import Mathlib.Data.List.Induction
import Mathlib.Data.List.Nodup

/-!
What an intake that refuses nothing has accepted. An entry is accepted when an item can be made
from it and the items stay distinct; so a whole intake succeeds exactly when every entry makes an
item and all of these are distinct. Each catalog is one case of this.
-/

namespace DecoderTables
open Json

section Intake

variable {α ε : Type} {accept : List α → ε → Except BuildError α}

theorem result_takeIn_append (before : List α) (entries : List ε) (entry : ε) :
    (takeIn accept before (entries ++ [entry])).result =
      (takeIn accept before entries).result >>= fun items =>
        (accept items entry).map (items ++ [·]) := by
  induction entries generalizing before with
  | nil =>
    change (takeIn accept before [entry]).result = (accept before entry).map (before ++ [·])
    unfold takeIn
    cases accept before entry with
    | ok item => rfl
    | error fault => rfl
  | cons first entries ih =>
    simp only [List.cons_append, takeIn]
    cases accept before first with
    | ok item => exact ih _
    | error fault => rfl

/-- `step` says when one more entry is accepted after items that are distinct. -/
theorem takeIn_eq_ok_iff (make : ε → Except BuildError α) (distinct : List α → Prop)
    (empty : distinct [])
    (shorter : ∀ items item, distinct (items ++ [item]) → distinct items)
    (step : ∀ items entry item, distinct items →
      (accept items entry = .ok item ↔ make entry = .ok item ∧ distinct (items ++ [item])))
    (entries : List ε) (all : List α) :
    (takeIn accept [] entries).result = .ok all ↔
      entries.map make = all.map .ok ∧ distinct all := by
  -- an entry is accepted or refused for what stands before it, so the last entry splits off
  induction entries using List.reverseRecOn generalizing all with
  | nil =>
    apply Iff.intro
    · intro done
      cases done
      exact ⟨rfl, empty⟩
    · intro given
      obtain ⟨made, _⟩ := given
      rw [List.map_eq_nil_iff.mp made.symm]
      rfl
  | append_singleton entries entry ih =>
    rw [result_takeIn_append, bind_eq_ok_iff, map_ok_append_iff]
    apply Iff.intro
    · intro given
      obtain ⟨items, before, last⟩ := given
      obtain ⟨made, known⟩ := (ih items).mp before
      cases judged : accept items entry with
      | error fault =>
        rw [judged] at last
        cases last
      | ok item =>
        rw [judged] at last
        cases last
        obtain ⟨new, together⟩ := (step items entry item known).mp judged
        exact ⟨⟨items, item, rfl, made, new⟩, together⟩
    · intro given
      obtain ⟨⟨items, item, rfl, made, new⟩, together⟩ := given
      have known := shorter items item together
      refine ⟨items, (ih items).mpr ⟨made, known⟩, ?_⟩
      rw [(step items entry item known).mpr ⟨new, together⟩]
      rfl

end Intake

section Names

variable {α : Type} (name : α → String)

theorem isSome_find?_name (items : List α) (key : String) :
    (items.find? (name · = key)).isSome = true ↔ key ∈ items.map name := by
  simp [List.find?_isSome]

/-- Of distinct keys at most one is found, so looking for it and filtering for it agree. -/
theorem filter_key_eq {κ : Type} [DecidableEq κ] (key : α → κ) (items : List α)
    (distinct : (items.map key).Nodup) (wanted : κ) :
    items.filter (key · = wanted) = (items.find? (key · = wanted)).toList := by
  induction items with
  | nil => rfl
  | cons item items ih =>
    rw [List.map_cons, List.nodup_cons] at distinct
    by_cases same : key item = wanted
    · have others : items.filter (key · = wanted) = [] := by
        rw [List.filter_eq_nil_iff]
        intro other member found
        apply distinct.1
        rw [same, ← of_decide_eq_true found]
        exact List.mem_map_of_mem member
      simp [same, others]
    · simp [same, ih distinct.2]

theorem nodup_map_append_singleton {β : Type} (key : α → β) (items : List α) (item : α) :
    ((items ++ [item]).map key).Nodup ↔ (items.map key).Nodup ∧ key item ∉ items.map key := by
  rw [List.map_append, List.map_singleton, List.nodup_append_comm, List.singleton_append,
    List.nodup_cons, and_comm]

end Names

namespace Instruction

/-- No two instructions share a name, and no identifier is taken twice. -/
structure Distinct (instructions : List Instruction) : Prop where
  names : (instructions.map (·.name)).Nodup
  identifiers : (taken instructions).Nodup

theorem structName_ne_enumTag (name other : String) :
    Identifier.structName name ≠ Identifier.enumTag other := by
  intro same
  have chars := congrArg (fun text => text.toList.head?) same
  simp [Identifier.structName, Identifier.enumTag] at chars

theorem taken_append_nodup_iff (items : List Instruction) (name : String) (fields : Members) :
    (taken (items ++ [ofEntry name fields])).Nodup ↔
      (taken items).Nodup ∧ ∀ identifier ∈ (ofEntry name fields).identifiers,
        identifier ∉ taken items := by
  have own : (ofEntry name fields).identifiers.Nodup := by
    simp [identifiers, ofEntry, structName_ne_enumTag]
  have apart : taken (items ++ [ofEntry name fields]) =
      taken items ++ (ofEntry name fields).identifiers := by simp [taken]
  rw [apart, List.nodup_append_comm, List.nodup_append']
  exact ⟨fun ⟨_, before, disjoint⟩ => ⟨before, disjoint⟩,
    fun ⟨before, disjoint⟩ => ⟨own, before, disjoint⟩⟩

theorem accept_eq_ok_iff (items : List Instruction) (entry : String × Members)
    (item : Instruction) (distinct : Distinct items) :
    accept items entry = .ok item ↔
      (.ok (ofEntry entry.1 entry.2) : Except BuildError Instruction) = .ok item ∧
        Distinct (items ++ [item]) := by
  obtain ⟨name, fields⟩ := entry
  have names := nodup_map_append_singleton (·.name) items (ofEntry name fields)
  have identifiers := taken_append_nodup_iff items name fields
  unfold accept
  by_cases repeated : (find? items name).isSome = true
  · simp only [repeated, ↓reduceIte, reduceCtorEq, false_iff]
    intro given
    obtain ⟨made, together⟩ := given
    cases made
    exact (names.mp together.names).2 ((isSome_find?_name Instruction.name items name).mp repeated)
  · have fresh : name ∉ items.map (·.name) :=
      fun member => repeated ((isSome_find?_name Instruction.name items name).mpr member)
    simp only [repeated, Bool.false_eq_true, ↓reduceIte]
    split
    · next identifier found =>
        simp only [reduceCtorEq, false_iff]
        intro given
        obtain ⟨made, together⟩ := given
        cases made
        have clash : identifier ∈ taken items := by simpa using List.find?_some found
        exact (identifiers.mp together.identifiers).2 identifier
          (List.mem_of_find?_eq_some found) clash
    · next none =>
        have free : ∀ identifier ∈ (ofEntry name fields).identifiers,
            identifier ∉ taken items := by simpa [List.find?_eq_none] using none
        apply Iff.intro
        · intro done
          cases done
          exact ⟨rfl, names.mpr ⟨distinct.names, fresh⟩,
            identifiers.mpr ⟨distinct.identifiers, free⟩⟩
        · exact fun both => both.1

theorem distinct_of_append (items : List Instruction) (item : Instruction)
    (distinct : Distinct (items ++ [item])) : Distinct items := by
  constructor
  · exact ((nodup_map_append_singleton _ _ _).mp distinct.names).1
  · refine distinct.identifiers.sublist (List.Sublist.cons_cons _ ?_)
    rw [List.flatMap_append]
    exact List.sublist_append_left _ _

theorem intake_eq_ok_iff (entries : Section Members) (items : List Instruction) :
    (intake entries).result = .ok items ↔
      items = entries.map (fun entry => ofEntry entry.1 entry.2) ∧ Distinct items := by
  rw [intake, takeIn_eq_ok_iff (fun entry => .ok (ofEntry entry.1 entry.2)) Distinct
    ⟨List.nodup_nil, by simp [taken]⟩ distinct_of_append accept_eq_ok_iff, map_ok_iff]

theorem names_map_ofEntry (entries : Section Members) :
    (entries.map fun entry => ofEntry entry.1 entry.2).map (·.name) = entries.map (·.1) := by
  rw [List.map_map]
  rfl

end Instruction

namespace Decoder

/-- No two decoders share a name, and no callback is taken twice. -/
structure Distinct (decoders : List Decoder) : Prop where
  names : (decoders.map (·.name)).Nodup
  callbacks : (taken decoders).Nodup

theorem ofEntry_eq_ok_iff (instructions : List Instruction) (name : String) (entry : DecoderEntry)
    (decoder : Decoder) :
    ofEntry instructions name entry = .ok decoder ↔
      ∃ instruction pattern, Instruction.find? instructions entry.instruction = some instruction ∧
        patternOf name entry.pattern = .ok pattern ∧
        decoder = {
          name
          instruction := instruction.name
          callback := Identifier.decoderCallback name
          structName := instruction.structName
          enumTag := instruction.enumTag
          flags := FlagSet.ofList entry.flags
          pattern
          predicates := (pattern.map (·.predicates)).getD []
          fields := entry.fields } := by
  unfold ofEntry
  cases Instruction.find? instructions entry.instruction with
  | none => simp
  | some instruction =>
    simp only [Option.some.injEq]
    rw [bind_eq_ok_iff]
    apply Iff.intro
    · intro given
      obtain ⟨pattern, checked, made⟩ := given
      cases made
      exact ⟨instruction, pattern, rfl, checked, rfl⟩
    · intro given
      obtain ⟨_, pattern, rfl, checked, rfl⟩ := given
      exact ⟨pattern, checked, rfl⟩

theorem names_of_ofEntry {instructions : List Instruction} {name : String} {entry : DecoderEntry}
    {decoder : Decoder} (made : ofEntry instructions name entry = .ok decoder) :
    decoder.name = name ∧ decoder.callback = Identifier.decoderCallback name := by
  obtain ⟨instruction, pattern, _, _, rfl⟩ := (ofEntry_eq_ok_iff _ _ _ _).mp made
  exact ⟨rfl, rfl⟩

theorem taken_append_nodup_iff (items : List Decoder) (decoder : Decoder) :
    (taken (items ++ [decoder])).Nodup ↔
      (taken items).Nodup ∧ decoder.callback ∉ taken items := by
  have apart : taken (items ++ [decoder]) = taken items ++ [decoder.callback] := by simp [taken]
  rw [apart, List.nodup_append_comm, List.singleton_append, List.nodup_cons, and_comm]

theorem distinct_append_iff (items : List Decoder) (decoder : Decoder) :
    Distinct (items ++ [decoder]) ↔
      Distinct items ∧ decoder.name ∉ items.map (·.name) ∧ decoder.callback ∉ taken items := by
  have names := nodup_map_append_singleton (·.name) items decoder
  have callbacks := taken_append_nodup_iff items decoder
  apply Iff.intro
  · intro distinct
    obtain ⟨beforeNames, name⟩ := names.mp distinct.names
    obtain ⟨beforeCallbacks, callback⟩ := callbacks.mp distinct.callbacks
    exact ⟨⟨beforeNames, beforeCallbacks⟩, name, callback⟩
  · intro given
    obtain ⟨before, name, callback⟩ := given
    exact ⟨names.mpr ⟨before.names, name⟩, callbacks.mpr ⟨before.callbacks, callback⟩⟩

theorem accept_eq_ok_iff (instructions : List Instruction) (items : List Decoder)
    (entry : String × DecoderEntry) (item : Decoder) (distinct : Distinct items) :
    accept instructions items entry = .ok item ↔
      ofEntry instructions entry.1 entry.2 = .ok item ∧ Distinct (items ++ [item]) := by
  obtain ⟨name, entry⟩ := entry
  rw [distinct_append_iff]
  unfold accept
  by_cases repeated : (find? items name).isSome = true
  · simp only [repeated, ↓reduceIte, reduceCtorEq, false_iff]
    intro given
    obtain ⟨made, _, fresh, _⟩ := given
    rw [(names_of_ofEntry made).1] at fresh
    exact fresh ((isSome_find?_name Decoder.name items name).mp repeated)
  · have fresh : name ∉ items.map (·.name) :=
      fun member => repeated ((isSome_find?_name Decoder.name items name).mpr member)
    simp only [repeated, Bool.false_eq_true, ↓reduceIte]
    rw [bind_eq_ok_iff]
    apply Iff.intro
    · intro given
      obtain ⟨decoder, made, done⟩ := given
      split at done
      · cases done
      · next free =>
          cases done
          exact ⟨made, distinct, (names_of_ofEntry made).1 ▸ fresh, free⟩
    · intro given
      obtain ⟨made, _, _, free⟩ := given
      exact ⟨item, made, if_neg free⟩

theorem intake_eq_ok_iff (instructions : List Instruction) (entries : Section DecoderEntry)
    (items : List Decoder) :
    (intake instructions entries).result = .ok items ↔
      entries.map (fun entry => ofEntry instructions entry.1 entry.2) = items.map .ok ∧
        Distinct items := by
  rw [intake, takeIn_eq_ok_iff
    (fun entry : String × DecoderEntry => ofEntry instructions entry.1 entry.2) Distinct
    ⟨List.nodup_nil, by simp [taken]⟩
    (fun items item distinct => ((distinct_append_iff items item).mp distinct).1)
    (accept_eq_ok_iff instructions)]

theorem names_eq {instructions : List Instruction} {entries : Section DecoderEntry}
    {items : List Decoder} (made : entries.map (fun entry => ofEntry instructions entry.1 entry.2) =
    items.map .ok) : items.map (·.name) = entries.map (·.1) :=
  map_eq_of_map_ok made _ _ fun _ _ same => (names_of_ofEntry same).1

theorem callbacks_eq {instructions : List Instruction} {entries : Section DecoderEntry}
    {items : List Decoder} (made : entries.map (fun entry => ofEntry instructions entry.1 entry.2) =
    items.map .ok) : items.map (·.callback) = entries.map (Identifier.decoderCallback ·.1) :=
  map_eq_of_map_ok made _ _ fun _ _ same => (names_of_ofEntry same).2

end Decoder

namespace Splitter

theorem accept_eq_ok_iff (items : List Splitter) (entry : String × SplitterEntry)
    (item : Splitter) (distinct : (items.map (·.name)).Nodup) :
    accept items entry = .ok item ↔
      (.ok (ofEntry entry.1 entry.2) : Except BuildError Splitter) = .ok item ∧
        ((items ++ [item]).map (·.name)).Nodup := by
  obtain ⟨name, entry⟩ := entry
  rw [nodup_map_append_singleton]
  unfold accept
  by_cases repeated : (find? items name).isSome = true
  · simp only [repeated, ↓reduceIte, reduceCtorEq, false_iff]
    intro given
    obtain ⟨made, _, fresh⟩ := given
    cases made
    exact fresh ((isSome_find?_name Splitter.name items name).mp repeated)
  · have fresh : name ∉ items.map (·.name) :=
      fun member => repeated ((isSome_find?_name Splitter.name items name).mpr member)
    simp only [repeated, Bool.false_eq_true, ↓reduceIte]
    apply Iff.intro
    · intro done
      cases done
      exact ⟨rfl, distinct, fresh⟩
    · exact fun both => both.1

theorem intake_eq_ok_iff (entries : Section SplitterEntry) (items : List Splitter) :
    (intake entries).result = .ok items ↔
      items = entries.map (fun entry => ofEntry entry.1 entry.2) ∧
        (items.map (·.name)).Nodup := by
  rw [intake, takeIn_eq_ok_iff (fun entry => .ok (ofEntry entry.1 entry.2))
    (fun items => (items.map (·.name)).Nodup) List.nodup_nil
    (fun items item distinct =>
      ((nodup_map_append_singleton Splitter.name items item).mp distinct).1)
    accept_eq_ok_iff, map_ok_iff]

theorem names_map_ofEntry (entries : Section SplitterEntry) :
    (entries.map fun entry => ofEntry entry.1 entry.2).map (·.name) = entries.map (·.1) := by
  rw [List.map_map]
  rfl

theorem checkApart_eq_ok_iff (decoders : List Decoder) (splitters : List Splitter) :
    checkApart decoders splitters = .ok () ↔
      ∀ splitter ∈ splitters, splitter.name ∉ decoders.map (·.name) ∧
        splitter.callback ∉ decoders.map (·.callback) := by
  induction splitters with
  | nil => simp [checkApart]
  | cons splitter splitters ih =>
    rw [List.forall_mem_cons, checkApart, ← ih]
    by_cases known : (Decoder.find? decoders splitter.name).isSome = true
    · have member := (isSome_find?_name Decoder.name decoders splitter.name).mp known
      simp [known, member]
    · have fresh : splitter.name ∉ decoders.map (·.name) :=
        fun member => known ((isSome_find?_name Decoder.name decoders splitter.name).mpr member)
      by_cases clash : splitter.callback ∈ decoders.map (·.callback)
      · simp [known, clash]
      · simp [known, fresh, clash]

end Splitter

end DecoderTables
