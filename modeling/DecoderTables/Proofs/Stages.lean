import DecoderTables.Proofs.Catalog.Accepted

/-!
Stages that take entries in their order and end at the first fault. Such a stage fails exactly when
some entry stops it: the entries before that one pass, and what stands behind it does not matter.
-/

namespace DecoderTables

section Stages

variable {α ε : Type} {stage : List ε → Except BuildError α}

/-- A stage passes the entries before an entry and stops at that entry, whatever stands after it. -/
structure StopsAt (stage : List ε → Except BuildError α) (before : List ε) (entry : ε)
    (fault : BuildError) : Prop where
  passes : ∃ result, stage before = .ok result
  stops : ∀ after, stage (before ++ entry :: after) = .error fault

theorem StopsAt.fails {before after entries : List ε} {entry : ε} {fault : BuildError}
    (stop : StopsAt stage before entry fault) (split : entries = before ++ entry :: after) :
    stage entries = .error fault := by
  rw [split]
  exact stop.stops after

/-- A stage that takes one entry after the other and does not recover from a fault. -/
structure Sequential (stage : List ε → Except BuildError α) : Prop where
  empty : ∃ result, stage [] = .ok result
  persists : ∀ entries entry fault, stage entries = .error fault →
    stage (entries ++ [entry]) = .error fault

theorem Sequential.persists_append (sequential : Sequential stage) (entries after : List ε)
    (fault : BuildError) (stopped : stage entries = .error fault) :
    stage (entries ++ after) = .error fault := by
  induction after generalizing entries with
  | nil => rwa [List.append_nil]
  | cons entry after ih =>
    have next := ih (entries ++ [entry]) (sequential.persists entries entry fault stopped)
    rwa [List.append_assoc, List.singleton_append] at next

/-- A stage that fails has a first entry at which it fails. -/
theorem Sequential.eq_error_iff (sequential : Sequential stage) (entries : List ε)
    (fault : BuildError) :
    stage entries = .error fault ↔
      ∃ before entry after, entries = before ++ entry :: after ∧
        StopsAt stage before entry fault := by
  apply Iff.intro
  · intro stopped
    induction entries using List.reverseRecOn with
    | nil =>
      obtain ⟨result, passed⟩ := sequential.empty
      rw [passed] at stopped
      cases stopped
    | append_singleton entries entry ih =>
      cases earlier : stage entries with
      | ok result =>
        refine ⟨entries, entry, [], rfl, ⟨result, earlier⟩, fun after => ?_⟩
        have kept := sequential.persists_append (entries ++ [entry]) after fault stopped
        rwa [List.append_assoc, List.singleton_append] at kept
      | error other =>
        rw [sequential.persists entries entry other earlier] at stopped
        cases stopped
        obtain ⟨before, first, after, rfl, stop⟩ := ih earlier
        exact ⟨before, first, after ++ [entry], by simp, stop⟩
  · intro given
    obtain ⟨before, entry, after, split, stop⟩ := given
    exact stop.fails split

theorem sequential_takeIn (accept : List α → ε → Except BuildError α) :
    Sequential fun entries => (takeIn accept [] entries).result where
  empty := ⟨[], rfl⟩
  persists entries entry fault stopped := by
    rw [result_takeIn_append, stopped]
    rfl

/-- An intake stops at an entry that is refused after the items made before it. -/
theorem StopsAt.refused {accept : List α → ε → Except BuildError α} {before : List ε} {entry : ε}
    {fault : BuildError}
    (stop : StopsAt (fun entries => (takeIn accept [] entries).result) before entry fault) :
    ∃ items, (takeIn accept [] before).result = .ok items ∧ accept items entry = .error fault := by
  obtain ⟨items, passed⟩ := stop.passes
  have stopped := stop.stops []
  rw [result_takeIn_append, passed] at stopped
  exact ⟨items, passed, (map_eq_error_iff _ _ _).mp stopped⟩

theorem StopsAt.of_refused {accept : List α → ε → Except BuildError α} {before : List ε}
    {entry : ε} {fault : BuildError} {items : List α}
    (passed : (takeIn accept [] before).result = .ok items)
    (refused : accept items entry = .error fault) :
    StopsAt (fun entries => (takeIn accept [] entries).result) before entry fault where
  passes := ⟨items, passed⟩
  stops after := by
    have stopped : (takeIn accept [] (before ++ [entry])).result = .error fault := by
      rw [result_takeIn_append, passed]
      exact (map_eq_error_iff _ _ _).mpr refused
    have kept := (sequential_takeIn accept).persists_append (before ++ [entry]) after fault stopped
    rwa [List.append_assoc, List.singleton_append] at kept

end Stages

end DecoderTables
