import DecoderTables.Proofs.Catalog.Indexed
import Mathlib.Data.List.Find

/-!
Filling a catalog with an index does what an intake does. After some items a filling is determined
by them: its index has their names, and the identifiers in use are those that they have taken. One
more entry keeps this, and is accepted or refused as the intake accepts or refuses it.
-/

namespace DecoderTables
open Json

/-- The state of a filling after some items. -/
def Filling.ofItems {α : Type} (name : α → String) (taken : List α → List String)
    (items : List α) : Filling α :=
  ⟨.ofItems name items, (taken items).toFinset⟩

namespace Filler

theorem reserve_eq_error {name : String} {used : Finset String} {identifiers : List String}
    (distinct : identifiers.Nodup) {identifier : String}
    (found : identifiers.find? (· ∈ used) = some identifier) :
    reserve name used identifiers = .error (.refused (.repeatedIdentifier name identifier)) := by
  induction identifiers generalizing used with
  | nil => cases found
  | cons first identifiers ih =>
    obtain ⟨fresh, rest⟩ := List.nodup_cons.mp distinct
    unfold reserve
    by_cases here : first ∈ used
    · rw [List.find?_cons_of_pos (by simpa using here)] at found
      cases found
      rw [if_pos here]
    · rw [List.find?_cons_of_neg (by simpa using here)] at found
      rw [if_neg here]
      apply ih rest
      rw [← found]
      apply List.find?_congr
      intro other member
      have different : other ≠ first := fun same => fresh (same ▸ member)
      simp [different]

theorem reserve_eq_ok (name : String) {used : Finset String} {identifiers : List String}
    (distinct : identifiers.Nodup) (free : ∀ identifier ∈ identifiers, identifier ∉ used) :
    reserve name used identifiers = .ok (used ∪ identifiers.toFinset) := by
  induction identifiers generalizing used with
  | nil => simp [reserve]
  | cons first identifiers ih =>
    obtain ⟨fresh, rest⟩ := List.nodup_cons.mp distinct
    obtain ⟨firstFree, restFree⟩ := List.forall_mem_cons.mp free
    have others : ∀ identifier ∈ identifiers, identifier ∉ insert first used := by
      intro identifier member used
      rcases Finset.mem_insert.mp used with rfl | taken
      · exact fresh member
      · exact restFree identifier member taken
    rw [reserve, if_neg firstFree, ih rest others]
    simp [Finset.insert_union]

variable {ε α : Type} {filler : Filler ε α} {name : α → String} {taken : List α → List String}
  {items : List α} {key : String} {entry : ε} {item : α}

theorem add_repeated (repeated : key ∈ items.map name) :
    filler.add (.ofItems name taken items) (key, entry) =
      .error (.refused (filler.repeatedName key)) := by
  rw [add, Filling.ofItems, Catalog.contains_ofItems, decide_eq_true repeated, if_pos rfl]

theorem add_fresh (fresh : key ∉ items.map name) :
    filler.add (.ofItems name taken items) (key, entry) = filler.make key entry >>= fun item =>
      reserve key (taken items).toFinset (filler.identifiers item) >>= fun used =>
        .ok ⟨(Catalog.ofItems name items).push key item, used⟩ := by
  rw [add, Filling.ofItems, Catalog.contains_ofItems, decide_eq_false fresh,
    if_neg Bool.false_ne_true]
  rfl

theorem add_taken (fresh : key ∉ items.map name) (made : filler.make key entry = .ok item)
    (distinct : (filler.identifiers item).Nodup) {identifier : String}
    (found : (filler.identifiers item).find? (· ∈ taken items) = some identifier) :
    filler.add (.ofItems name taken items) (key, entry) =
      .error (.refused (.repeatedIdentifier key identifier)) := by
  have clash : (filler.identifiers item).find? (· ∈ (taken items).toFinset) = some identifier := by
    simpa only [List.mem_toFinset] using found
  rw [add_fresh fresh, made]
  change reserve key _ (filler.identifiers item) >>= _ = _
  rw [reserve_eq_error distinct clash]
  rfl

/-- The push that keeps a filling as it is after its items. -/
theorem add_accepted (fresh : key ∉ items.map name) (made : filler.make key entry = .ok item)
    (named : name item = key) (distinct : (filler.identifiers item).Nodup)
    (free : ∀ identifier ∈ filler.identifiers item, identifier ∉ taken items)
    (grown : taken (items ++ [item]) = taken items ++ filler.identifiers item) :
    filler.add (.ofItems name taken items) (key, entry) =
      .ok (.ofItems name taken (items ++ [item])) := by
  have unused : ∀ identifier ∈ filler.identifiers item, identifier ∉ (taken items).toFinset := by
    simpa only [List.mem_toFinset] using free
  rw [add_fresh fresh, made]
  change reserve key _ (filler.identifiers item) >>= _ = _
  rw [reserve_eq_ok key distinct unused, Filling.ofItems, Catalog.ofItems_append_singleton, named,
    grown, List.toFinset_append]
  rfl

end Filler

/-- A filler that does to catalogs what an intake does to their items. -/
structure Filler.Follows {ε α : Type} (filler : Filler ε α) (name : α → String)
    (taken : List α → List String)
    (accept : List α → String × ε → Except BuildError α) : Prop where
  start : filler.reserved = (taken []).toFinset
  step : ∀ items entry, filler.add (.ofItems name taken items) entry =
    ((accept items entry).map fun item => .ofItems name taken (items ++ [item])).mapError .refused

namespace Filler.Follows

variable {ε α : Type} {filler : Filler ε α} {name : α → String} {taken : List α → List String}
  {accept : List α → String × ε → Except BuildError α}

theorem run (follows : filler.Follows name taken accept) (entries : Section ε) (items : List α) :
    entries.foldlM filler.add (.ofItems name taken items) =
      ((takeIn accept items entries).result.map (.ofItems name taken)).mapError .refused := by
  induction entries generalizing items with
  | nil => rfl
  | cons entry entries ih =>
    rw [List.foldlM_cons, follows.step, takeIn]
    cases accept items entry with
    | ok item => exact ih (items ++ [item])
    | error fault => rfl

theorem fill_eq (follows : filler.Follows name taken accept) (entries : Section ε) :
    filler.fill entries =
      ((takeIn accept [] entries).result.map (.ofItems name)).mapError .refused := by
  have start : (⟨.empty, filler.reserved⟩ : Filling α) = .ofItems name taken [] := by
    rw [follows.start]
    rfl
  rw [fill, start, follows.run]
  cases (takeIn accept [] entries).result with
  | ok items => rfl
  | error fault => rfl

end Filler.Follows

namespace Instruction

theorem filler_follows : filler.Follows (·.name) taken accept where
  start := by simp [filler, taken]
  step items entry := by
    obtain ⟨name, fields⟩ := entry
    have names := isSome_find?_name Instruction.name items name
    have own : (ofEntry name fields).identifiers.Nodup := by
      simp [identifiers, ofEntry, structName_ne_enumTag]
    unfold accept
    by_cases repeated : name ∈ items.map (·.name)
    · simp only [find?, names.mpr repeated, ↓reduceIte]
      exact Filler.add_repeated repeated
    · simp only [find?, mt names.mp repeated, ↓reduceIte, Bool.false_eq_true]
      split
      · next identifier found => exact Filler.add_taken repeated rfl own found
      · next none =>
          have free : ∀ identifier ∈ (ofEntry name fields).identifiers,
              identifier ∉ taken items := by simpa [List.find?_eq_none] using none
          exact Filler.add_accepted repeated rfl rfl own free (by simp [taken, filler])

theorem fill_eq (entries : Section Members) :
    filler.fill entries =
      ((intake entries).result.map (.ofItems (·.name))).mapError .refused :=
  filler_follows.fill_eq entries

end Instruction

namespace Decoder

theorem ofEntry_eq_ofInstruction (instructions : List Instruction) (name : String)
    (entry : DecoderEntry) :
    ofEntry instructions name entry =
      ofInstruction name entry (Instruction.find? instructions entry.instruction) := by
  unfold ofEntry
  cases Instruction.find? instructions entry.instruction with
  | none => rfl
  | some instruction => rfl

theorem make_filler (instructions : List Instruction)
    (distinct : (instructions.map (·.name)).Nodup) (name : String) (entry : DecoderEntry) :
    (filler (.ofItems (·.name) instructions)).make name entry =
      (ofEntry instructions name entry).mapError .refused := by
  have found := Catalog.get_ofItems (·.name) instructions distinct entry.instruction
  rw [ofEntry_eq_ofInstruction]
  simp only [filler, found]
  rfl

theorem filler_follows (instructions : List Instruction)
    (distinct : (instructions.map (·.name)).Nodup) :
    (filler (.ofItems (·.name) instructions)).Follows (·.name) taken (accept instructions) where
  start := by simp [filler, taken]
  step items entry := by
    obtain ⟨name, entry⟩ := entry
    have names := isSome_find?_name Decoder.name items name
    have made := make_filler instructions distinct name entry
    unfold accept
    by_cases repeated : name ∈ items.map (·.name)
    · simp only [find?, names.mpr repeated, ↓reduceIte]
      exact Filler.add_repeated repeated
    · simp only [find?, mt names.mp repeated, ↓reduceIte, Bool.false_eq_true]
      cases ready : ofEntry instructions name entry with
      | error fault =>
        rw [Filler.add_fresh repeated, made, ready]
        rfl
      | ok decoder =>
        rw [ready] at made
        change _ = Except.mapError _ (Except.map _ (ite _ _ _))
        by_cases used : decoder.callback ∈ taken items
        · rw [if_pos used]
          refine Filler.add_taken repeated made (List.nodup_singleton _) ?_
          simp [filler, used]
        · rw [if_neg used]
          refine Filler.add_accepted repeated made (names_of_ofEntry ready).1
            (List.nodup_singleton _) ?_ ?_
          · simpa [filler] using used
          · simp [taken, filler]

theorem fill_eq (instructions : List Instruction) (distinct : (instructions.map (·.name)).Nodup)
    (entries : Section DecoderEntry) :
    (filler (.ofItems (·.name) instructions)).fill entries =
      ((intake instructions entries).result.map (.ofItems (·.name))).mapError .refused :=
  (filler_follows instructions distinct).fill_eq entries

end Decoder

namespace Splitter

/-- Splitters take no identifiers into use. -/
theorem filler_follows : filler.Follows (·.name) (fun _ => []) accept where
  start := rfl
  step items entry := by
    obtain ⟨name, entry⟩ := entry
    have names := isSome_find?_name Splitter.name items name
    unfold accept
    by_cases repeated : name ∈ items.map (·.name)
    · simp only [find?, names.mpr repeated, ↓reduceIte]
      exact Filler.add_repeated repeated
    · simp only [find?, mt names.mp repeated, ↓reduceIte, Bool.false_eq_true]
      exact Filler.add_accepted repeated rfl rfl List.nodup_nil (by simp [filler]) rfl

theorem fill_eq (entries : Section SplitterEntry) :
    filler.fill entries =
      ((intake entries).result.map (.ofItems (·.name))).mapError .refused :=
  filler_follows.fill_eq entries

end Splitter

end DecoderTables
