import DecoderTables.Proofs.Catalog.Fit
import DecoderTables.Proofs.Stages

/-!
What is wrong with an entry at which a catalog stops, said of the entries as they stand in the
document.
-/

namespace DecoderTables
open Json Identifier

/-- What is wrong with an instruction that stands after others. -/
inductive Instruction.Fault (before : Section Members) (name : String) : BuildError → Prop
  | name (repeated : name ∈ before.map (·.1)) : Fault before name (.repeatedInstruction name)
  | structName (fresh : name ∉ before.map (·.1))
      (taken : pascalCase name ∈ before.map (pascalCase ·.1)) :
      Fault before name (.repeatedIdentifier name (Identifier.structName name))
  | enumTag (fresh : name ∉ before.map (·.1))
      (free : pascalCase name ∉ before.map (pascalCase ·.1))
      (reserved : pascalCase name = "Invalid") :
      Fault before name (.repeatedIdentifier name (Identifier.enumTag name))

namespace Instruction

theorem structName_mem_taken_iff (before : Section Members) (name : String) :
    Identifier.structName name ∈ taken (before.map fun entry => ofEntry entry.1 entry.2) ↔
      pascalCase name ∈ before.map (pascalCase ·.1) := by
  have invalid := structName_ne_invalidTag name
  have apart := structName_ne_enumTag name
  simp only [taken, List.mem_cons, invalid, false_or, List.flatMap_map, List.mem_flatMap,
    identifiers, ofEntry, structName_inj, apart, List.not_mem_nil, or_false, List.mem_map]
  simp only [eq_comm]

theorem enumTag_mem_taken_iff (before : Section Members) (name : String) :
    Identifier.enumTag name ∈ taken (before.map fun entry => ofEntry entry.1 entry.2) ↔
      pascalCase name = "Invalid" ∨ pascalCase name ∈ before.map (pascalCase ·.1) := by
  have apart : ∀ other, Identifier.enumTag name ≠ Identifier.structName other :=
    fun other => (structName_ne_enumTag other name).symm
  simp only [taken, List.mem_cons, enumTag_eq_invalidTag_iff, List.flatMap_map, List.mem_flatMap,
    identifiers, ofEntry, enumTag_inj, apart, false_or, List.not_mem_nil, or_false, List.mem_map]
  simp only [eq_comm]

theorem identifiers_ofEntry (name : String) (fields : Members) :
    (ofEntry name fields).identifiers = [Identifier.structName name, Identifier.enumTag name] :=
  rfl

theorem fault_of_accept {before : Section Members} {entry : String × Members} {fault : BuildError}
    (refused : accept (before.map fun entry => ofEntry entry.1 entry.2) entry = .error fault) :
    Fault before entry.1 fault := by
  obtain ⟨name, fields⟩ := entry
  have names := isSome_find?_name Instruction.name
    (before.map fun entry => ofEntry entry.1 entry.2) name
  rw [names_map_ofEntry] at names
  have first := structName_mem_taken_iff before name
  have second := enumTag_mem_taken_iff before name
  simp only [accept, find?, names] at refused
  split at refused
  · next repeated =>
      cases refused
      exact Fault.name repeated
  · next fresh =>
      by_cases struct : pascalCase name ∈ before.map (pascalCase ·.1)
      · simp only [identifiers_ofEntry, List.find?_cons, first.mpr struct, decide_true,
          Except.error.injEq] at refused
        subst refused
        exact Fault.structName fresh struct
      · by_cases reserved : pascalCase name = "Invalid"
        · simp only [identifiers_ofEntry, List.find?_cons, first, struct,
            second.mpr (Or.inl reserved), decide_false, decide_true,
            Except.error.injEq] at refused
          subst refused
          exact Fault.enumTag fresh struct reserved
        · simp [identifiers_ofEntry, first, second, struct, reserved] at refused

theorem fault_of_stopsAt {before : Section Members} {entry : String × Members} {fault : BuildError}
    (stop : StopsAt (fun entries => (intake entries).result) before entry fault) :
    Fault before entry.1 fault := by
  obtain ⟨items, passed, refused⟩ := stop.refused
  obtain ⟨rfl, _⟩ := (intake_eq_ok_iff before items).mp passed
  exact fault_of_accept refused

end Instruction

/-- What is wrong with a decoder that stands after others: the first of these things in their
order. -/
inductive Decoder.Fault (instructions : Section Members) (before : Section DecoderEntry)
    (name : String) (entry : DecoderEntry) : BuildError → Prop
  | name (repeated : name ∈ before.map (·.1)) :
      Fault instructions before name entry (.repeatedDecoder name)
  | instruction (fresh : name ∉ before.map (·.1))
      (unknown : entry.instruction ∉ instructions.map (·.1)) :
      Fault instructions before name entry (.unknownInstruction name entry.instruction)
  | lo {pattern : PatternEntry} {reason : PatternError} (fresh : name ∉ before.map (·.1))
      (known : entry.instruction ∈ instructions.map (·.1)) (given : entry.pattern = some pattern)
      (invalid : PatternFault pattern.lo reason) :
      Fault instructions before name entry (.malformedPattern name pattern.lo reason)
  | hi {pattern : PatternEntry} {high : String} {reason : PatternError}
      (fresh : name ∉ before.map (·.1)) (known : entry.instruction ∈ instructions.map (·.1))
      (given : entry.pattern = some pattern) (lo : IsPatternText pattern.lo)
      (wide : pattern.hi = some high) (invalid : PatternFault high reason) :
      Fault instructions before name entry (.malformedPattern name high reason)
  | callback (fresh : name ∉ before.map (·.1))
      (known : entry.instruction ∈ instructions.map (·.1))
      (valid : ∀ pattern, entry.pattern = some pattern → pattern.Fits)
      (taken : pascalCase name = "InvalidInstr" ∨ pascalCase name ∈ before.map (pascalCase ·.1)) :
      Fault instructions before name entry
        (.repeatedIdentifier name (Identifier.decoderCallback name))

namespace Decoder

variable {instructions : Section Members} {known : List Instruction}
  {before : Section DecoderEntry} {name : String} {entry : DecoderEntry} {fault : BuildError}

theorem patternOf_eq_error_iff (name : String) (entry : Option PatternEntry) (fault : BuildError) :
    patternOf name entry = .error fault ↔
      ∃ pattern text reason, entry = some pattern ∧
        BitPattern.ofTexts pattern.lo pattern.hi = .error (text, reason) ∧
        fault = .malformedPattern name text reason := by
  cases entry with
  | none => simp [patternOf]
  | some pattern =>
    cases made : BitPattern.ofTexts pattern.lo pattern.hi with
    | ok value => simp [patternOf, made]
    | error cause =>
      obtain ⟨text, reason⟩ := cause
      simp [patternOf, made, eq_comm]

theorem ofEntry_eq_error_iff (known : List Instruction) (name : String) (entry : DecoderEntry)
    (fault : BuildError) :
    ofEntry known name entry = .error fault ↔
      (entry.instruction ∉ known.map (·.name) ∧
          fault = .unknownInstruction name entry.instruction) ∨
        (entry.instruction ∈ known.map (·.name) ∧
          patternOf name entry.pattern = .error fault) := by
  have found := isSome_find?_name Instruction.name known entry.instruction
  unfold ofEntry Instruction.find?
  cases looked : known.find? (Instruction.name · = entry.instruction) with
  | none =>
    have unknown : entry.instruction ∉ known.map (·.name) := by
      rw [← found, looked]
      exact Bool.false_ne_true
    simp [unknown, eq_comm]
  | some instruction =>
    have member := found.mp (Option.isSome_of_eq_some looked)
    simp only [bind_eq_error_iff, member, not_true_eq_false, false_and, true_and, false_or]
    exact or_iff_left fun ⟨_, _, done⟩ => nomatch done

theorem fault_of_ofEntry (names : known.map (·.name) = instructions.map (·.1))
    (fresh : name ∉ before.map (·.1)) (refused : ofEntry known name entry = .error fault) :
    Fault instructions before name entry fault := by
  rw [ofEntry_eq_error_iff, names] at refused
  rcases refused with ⟨unknown, rfl⟩ | ⟨member, refused⟩
  · exact Fault.instruction fresh unknown
  · obtain ⟨pattern, text, reason, given, made, rfl⟩ := (patternOf_eq_error_iff _ _ _).mp refused
    rcases BitPattern.fault_of_ofTexts made with ⟨rfl, invalid⟩ | ⟨lo, wide, invalid⟩
    · exact Fault.lo fresh member given invalid
    · exact Fault.hi fresh member given lo wide invalid

theorem decoderCallback_mem_taken_iff {items : List Decoder}
    (made : before.map (fun entry => ofEntry known entry.1 entry.2) = items.map .ok)
    (name : String) :
    Identifier.decoderCallback name ∈ taken items ↔
      pascalCase name = "InvalidInstr" ∨ pascalCase name ∈ before.map (pascalCase ·.1) := by
  rw [taken, callbacks_eq made, List.mem_cons, decoderCallback_eq_invalidDecoder_iff]
  simp only [List.mem_map, decoderCallback_inj]

theorem fault_of_accept (names : known.map (·.name) = instructions.map (·.1)) {items : List Decoder}
    (made : before.map (fun entry => ofEntry known entry.1 entry.2) = items.map .ok)
    (refused : accept known items (name, entry) = .error fault) :
    Fault instructions before name entry fault := by
  have own := isSome_find?_name Decoder.name items name
  rw [names_eq made] at own
  simp only [accept, find?, own] at refused
  split at refused
  · next repeated =>
      cases refused
      exact Fault.name repeated
  · next fresh =>
      obtain stopped | ⟨decoder, ready, stopped⟩ := (bind_eq_error_iff _ _ _).mp refused
      · exact fault_of_ofEntry names fresh stopped
      · obtain ⟨instruction, patterns⟩ := (exists_ofEntry_iff known name entry).mp ⟨decoder, ready⟩
        rw [names] at instruction
        rw [(names_of_ofEntry ready).2] at stopped
        simp only [decoderCallback_mem_taken_iff made] at stopped
        split at stopped
        · next taken =>
            cases stopped
            exact Fault.callback fresh instruction patterns taken
        · cases stopped

theorem fault_of_stopsAt {entry : String × DecoderEntry}
    (names : known.map (·.name) = instructions.map (·.1))
    (stop : StopsAt (fun entries => (intake known entries).result) before entry fault) :
    Fault instructions before entry.1 entry.2 fault := by
  obtain ⟨items, passed, refused⟩ := stop.refused
  exact fault_of_accept names ((intake_eq_ok_iff known before items).mp passed).1 refused

end Decoder

theorem Splitter.fault_of_stopsAt {before : Section SplitterEntry} {entry : String × SplitterEntry}
    {fault : BuildError}
    (stop : StopsAt (fun entries => (intake entries).result) before entry fault) :
    entry.1 ∈ before.map (·.1) ∧ fault = .repeatedSplitter entry.1 := by
  obtain ⟨items, passed, refused⟩ := stop.refused
  obtain ⟨rfl, _⟩ := (intake_eq_ok_iff before items).mp passed
  have own := isSome_find?_name Splitter.name
    (before.map fun entry => ofEntry entry.1 entry.2) entry.1
  rw [Splitter.names_map_ofEntry] at own
  simp only [accept, find?, own] at refused
  split at refused
  · next repeated =>
      cases refused
      exact ⟨repeated, rfl⟩
  · cases refused

/-- What a splitter shares with a decoder. -/
inductive Splitter.Clash (decoders : Section DecoderEntry) (name : String) : BuildError → Prop
  | name (shared : name ∈ decoders.map (·.1)) : Clash decoders name (.ambiguousCallback name)
  | callback (own : name ∉ decoders.map (·.1))
      (shared : splitterCallback name ∈ decoders.map (decoderCallback ·.1)) :
      Clash decoders name (.repeatedIdentifier name (splitterCallback name))

namespace Splitter

theorem checkApart_append (decoders : List Decoder) (before after : List Splitter) :
    checkApart decoders (before ++ after) =
      checkApart decoders before >>= fun _ => checkApart decoders after := by
  induction before with
  | nil => rfl
  | cons splitter before ih =>
    simp only [List.cons_append, checkApart]
    split
    · rfl
    · split
      · rfl
      · exact ih

/-- The entries of splitters against decoders. -/
def apart (decoders : List Decoder) (entries : Section SplitterEntry) : Except BuildError Unit :=
  checkApart decoders (entries.map fun entry => ofEntry entry.1 entry.2)

theorem apart_append (decoders : List Decoder) (before after : Section SplitterEntry) :
    apart decoders (before ++ after) = apart decoders before >>= fun _ => apart decoders after := by
  rw [apart, List.map_append, checkApart_append]
  rfl

theorem sequential_apart (decoders : List Decoder) : Sequential (apart decoders) where
  empty := ⟨(), rfl⟩
  persists entries entry fault stopped := by
    rw [apart_append, stopped]
    rfl

theorem clash_of_stopsAt {instructions : List Instruction} {decoders : Section DecoderEntry}
    {items : List Decoder}
    (made : decoders.map (fun entry => Decoder.ofEntry instructions entry.1 entry.2) =
      items.map .ok)
    {before : Section SplitterEntry} {entry : String × SplitterEntry} {fault : BuildError}
    (stop : StopsAt (apart items) before entry fault) : Clash decoders entry.1 fault := by
  obtain ⟨⟨⟩, passed⟩ := stop.passes
  have stopped := stop.stops []
  rw [apart_append, passed] at stopped
  have names := isSome_find?_name Decoder.name items entry.1
  have callbacks := Decoder.callbacks_eq made
  rw [Decoder.names_eq made] at names
  change checkApart items [ofEntry entry.1 entry.2] = .error fault at stopped
  simp only [checkApart, ofEntry, callbacks] at stopped
  split at stopped
  · next shared =>
      cases stopped
      exact Clash.name (names.mp shared)
  · next own =>
      split at stopped
      · next shared =>
          cases stopped
          exact Clash.callback (own ∘ names.mpr) shared
      · cases stopped

end Splitter

end DecoderTables
