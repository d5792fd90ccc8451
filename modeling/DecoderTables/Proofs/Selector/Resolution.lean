import DecoderTables.Proofs.Selector.Keys
import DecoderTables.Proofs.Stages

/-!
What stops the table: a key that is malformed or repeated, or else the least selector value whose
opcode refers to nothing.
-/

namespace DecoderTables

/-- Five binary digits. -/
def IsKeyText (key : String) : Prop :=
  key.toList.length = 5 ∧ ∀ c ∈ key.toList, c = '0' ∨ c = '1'

/-- The keys of the opcodes are distinct and have five binary digits. -/
structure KeysFit (opcodes : Section OpcodeEntry) : Prop where
  digits : ∀ entry ∈ opcodes, IsKeyText entry.1
  distinct : (opcodes.map (·.1)).Nodup

theorem KeysFit.of_perm {opcodes reordered : Section OpcodeEntry} (keys : KeysFit opcodes)
    (perm : reordered.Perm opcodes) : KeysFit reordered where
  digits entry member := keys.digits entry (perm.mem_iff.mp member)
  distinct := (perm.map (·.1)).nodup_iff.mpr keys.distinct

/-- What is wrong with a key that stands after others. -/
inductive Selector.KeyFault (before : List String) (key : String) : BuildError → Prop
  | digits (wrong : ¬IsKeyText key) : KeyFault before key (.invalidOpcodeKey key)
  | repeated (digits : IsKeyText key) (known : key ∈ before) :
      KeyFault before key (.repeatedOpcode key)

namespace Selector

theorem isKey_iff_isKeyText (key : String) : isKey key = true ↔ IsKeyText key := by
  simp only [isKey, Bool.and_eq_true, decide_eq_true_eq, List.all_eq_true, Bool.or_eq_true]
  rfl

theorem checkKeys_eq_ok_iff_fit (opcodes : Section OpcodeEntry) :
    checkKeys [] (opcodes.map (·.1)) = .ok () ↔ KeysFit opcodes := by
  rw [checkKeys_eq_ok_iff, List.forall_mem_map]
  simp only [isKey_iff_isKeyText, List.not_mem_nil, not_false_eq_true, implies_true, and_true]
  exact ⟨fun ⟨digits, distinct⟩ => ⟨digits, distinct⟩, fun fit => ⟨fit.digits, fit.distinct⟩⟩

theorem checkKeys_append (known before after : List String) :
    checkKeys known (before ++ after) =
      checkKeys known before >>= fun _ => checkKeys (before.reverse ++ known) after := by
  induction before generalizing known with
  | nil => rfl
  | cons key before ih =>
    simp only [List.cons_append, checkKeys]
    split
    · rfl
    · split
      · rfl
      · rw [ih, List.reverse_cons, List.append_assoc, List.singleton_append]

theorem sequential_checkKeys (known : List String) : Sequential (checkKeys known) where
  empty := ⟨(), rfl⟩
  persists keys key fault stopped := by
    rw [checkKeys_append, stopped]
    rfl

theorem keyFault_of_stopsAt {before : List String} {key : String} {fault : BuildError}
    (stop : StopsAt (checkKeys []) before key fault) : KeyFault before key fault := by
  obtain ⟨⟨⟩, passed⟩ := stop.passes
  have stopped := stop.stops []
  rw [checkKeys_append, passed] at stopped
  change checkKeys (before.reverse ++ []) [key] = .error fault at stopped
  simp only [List.append_nil, checkKeys, List.mem_reverse] at stopped
  by_cases digits : IsKeyText key
  · have valid := (isKey_iff_isKeyText key).mpr digits
    simp only [valid, Bool.not_true, Bool.false_eq_true, ↓reduceIte] at stopped
    split at stopped
    · next repeated =>
        cases stopped
        exact KeyFault.repeated digits repeated
    · cases stopped
  · have invalid : isKey key = false := by
      rw [← Bool.not_eq_true, isKey_iff_isKeyText]
      exact digits
    simp only [invalid, Bool.not_false, ↓reduceIte, Except.error.injEq] at stopped
    subst stopped
    exact KeyFault.digits digits

/-- A value is not resolved when its opcode refers to two items or to none. -/
theorem resolve_eq_error_iff (opcodes : Section OpcodeEntry) (decoders : List Decoder)
    (splitters : List Splitter) (index : Nat) (fault : BuildError) :
    resolve opcodes decoders splitters index = .error fault ↔
      ∃ opcode, opcodes.reverse.lookup (binary index) = some opcode ∧
        ((opcode.decoder ∈ decoders.map (·.name) ∧ opcode.decoder ∈ splitters.map (·.name) ∧
            fault = .ambiguousCallback opcode.decoder) ∨
          (opcode.decoder ∉ decoders.map (·.name) ∧ opcode.decoder ∉ splitters.map (·.name) ∧
            fault = .unknownCallback (binary index) opcode.decoder)) := by
  unfold resolve
  cases opcodes.reverse.lookup (binary index) with
  | none => simp
  | some opcode =>
    have decoder := isSome_find?_name Decoder.name decoders opcode.decoder
    have splitter := isSome_find?_name Splitter.name splitters opcode.decoder
    simp only [Option.some.injEq, exists_eq_left', ← decoder, ← splitter, Decoder.find?,
      Splitter.find?]
    cases decoders.find? (Decoder.name · = opcode.decoder) with
    | none =>
      cases splitters.find? (Splitter.name · = opcode.decoder) with
      | none => simp [eq_comm]
      | some found => simp
    | some found =>
      cases splitters.find? (Splitter.name · = opcode.decoder) with
      | none => simp
      | some other => simp [eq_comm]

variable {opcodes : Section OpcodeEntry} {decoders : List Decoder} {splitters : List Splitter}

/-- When decoders and splitters share no name, only an unknown name stops the resolution. -/
theorem resolve_eq_error_iff_unknown (fit : KeysFit opcodes)
    (apart : ∀ name ∈ splitters.map (·.name), name ∉ decoders.map (·.name)) (index : Nat)
    (fault : BuildError) :
    resolve opcodes decoders splitters index = .error fault ↔
      ∃ opcode, (binary index, opcode) ∈ opcodes ∧ opcode.decoder ∉ decoders.map (·.name) ∧
        opcode.decoder ∉ splitters.map (·.name) ∧
        fault = .unknownCallback (binary index) opcode.decoder := by
  simp only [resolve_eq_error_iff, lookup_reverse_eq_some_iff opcodes fit.distinct]
  apply Iff.intro
  · intro given
    obtain ⟨opcode, member, ⟨decoder, splitter, _⟩ | unknown⟩ := given
    · exact absurd decoder (apart _ splitter)
    · exact ⟨opcode, member, unknown⟩
  · intro given
    obtain ⟨opcode, member, unknown⟩ := given
    exact ⟨opcode, member, Or.inr unknown⟩

theorem exists_resolve_iff (fit : KeysFit opcodes)
    (apart : ∀ name ∈ splitters.map (·.name), name ∉ decoders.map (·.name)) (index : Nat) :
    (∃ entry, resolve opcodes decoders splitters index = .ok entry) ↔
      ∀ opcode, (binary index, opcode) ∈ opcodes →
        opcode.decoder ∈ decoders.map (·.name) ∨ opcode.decoder ∈ splitters.map (·.name) := by
  have unknown := resolve_eq_error_iff_unknown fit apart index
  cases resolved : resolve opcodes decoders splitters index with
  | ok entry =>
    simp only [Except.ok.injEq, exists_eq', true_iff]
    intro opcode member
    by_contra neither
    rw [not_or] at neither
    have stopped := (unknown _).mpr ⟨opcode, member, neither.1, neither.2, rfl⟩
    rw [resolved] at stopped
    cases stopped
  | error fault =>
    obtain ⟨opcode, member, decoder, splitter, _⟩ := (unknown fault).mp resolved
    simp only [reduceCtorEq, exists_false, false_iff]
    intro known
    exact (known opcode member).elim decoder splitter

theorem mem_of_range_eq_append {length smaller index : Nat} {before after : List Nat}
    (split : List.range length = before ++ index :: after) (less : smaller < index) :
    smaller ∈ before := by
  have ascending : (before ++ index :: after).Pairwise (· < ·) := split ▸ List.pairwise_lt_range
  have inside : index < length := by
    rw [← List.mem_range, split]
    simp
  have member : smaller ∈ before ++ index :: after := by
    rw [← split, List.mem_range]
    omega
  rcases List.mem_append.mp member with early | late
  · exact early
  · rcases List.mem_cons.mp late with rfl | later
    · exact absurd less (Nat.lt_irrefl _)
    · have above := (List.pairwise_cons.mp (List.pairwise_append.mp ascending).2.1).1 smaller later
      omega

/-- The selector values are resolved in ascending order, so the least that cannot be resolved is
the one that is reported. -/
theorem resolve_of_intake_eq_error {opcodes : Section OpcodeEntry} {decoders : List Decoder}
    {splitters : List Splitter} {fault : BuildError}
    (stopped : (intake opcodes decoders splitters).result = .error fault) :
    ∃ index < 32, resolve opcodes decoders splitters index = .error fault ∧
      ∀ smaller < index, ∃ entry, resolve opcodes decoders splitters smaller = .ok entry := by
  obtain ⟨before, index, after, split, stop⟩ :=
    ((sequential_takeIn _).eq_error_iff _ fault).mp stopped
  obtain ⟨items, passed, refused⟩ := stop.refused
  rw [takeIn_eq_ok_iff (resolve opcodes decoders splitters) (fun _ => True) trivial
    (fun _ _ _ => trivial) (fun _ _ _ _ => by simp)] at passed
  have resolved := (exists_map_ok_iff (resolve opcodes decoders splitters) before).mp
    ⟨items, passed.1⟩
  refine ⟨index, ?_, refused, ?_⟩
  · rw [← List.mem_range, ← show count = 32 from rfl, split]
    simp
  · intro smaller less
    exact resolved smaller (mem_of_range_eq_append split less)

theorem intake_eq_error_iff (opcodes : Section OpcodeEntry) (decoders : List Decoder)
    (splitters : List Splitter) (fault : BuildError) :
    (intake opcodes decoders splitters).result = .error fault ↔
      ∃ index < 32, resolve opcodes decoders splitters index = .error fault ∧
        ∀ smaller < index, ∃ entry, resolve opcodes decoders splitters smaller = .ok entry := by
  apply Iff.intro resolve_of_intake_eq_error
  intro given
  obtain ⟨index, inside, refused, resolved⟩ := given
  cases done : (intake opcodes decoders splitters).result with
  | ok entries =>
    have made := (intake_eq_ok_iff opcodes decoders splitters entries).mp done
    obtain ⟨entry, fine⟩ := (exists_map_ok_iff _ _).mp ⟨entries, made⟩ index
      (List.mem_range.mpr inside)
    rw [refused] at fine
    cases fine
  | error other =>
    obtain ⟨first, _, stopped, before⟩ := resolve_of_intake_eq_error done
    rcases Nat.lt_trichotomy first index with less | rfl | greater
    · obtain ⟨entry, fine⟩ := resolved first less
      rw [stopped] at fine
      cases fine
    · rw [stopped] at refused
      cases refused
      rfl
    · obtain ⟨entry, fine⟩ := before index greater
      rw [refused] at fine
      cases fine

end Selector

end DecoderTables
