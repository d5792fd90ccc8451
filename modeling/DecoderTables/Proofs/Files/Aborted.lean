import DecoderTables.Proofs.Files.Installation

/-!
How a writing of artifacts ends with an error: what was done until then, and what is removed.
-/

namespace DecoderTables
open Disk

/-! Temporary files are removed. -/

section Removal

variable {σ : Type} [Host (StateM σ)]

/-- Files at the paths may be gone, and are so where the host has created them. -/
structure Clears (tree : σ → Disk) (paths : List Path) (before after : σ) : Prop where
  later : Later before after
  extended : Extends [] (tree before) (tree after)
  kept : ∀ place ∉ paths.map (tree before).place,
    (tree after).file? place = (tree before).file? place
  only : ∀ place, (tree after).file? place = (tree before).file? place ∨
    (tree after).file? place = none
  gone : ∀ path ∈ paths, Removable tree path before →
    (tree after).file? ((tree before).place path) = none

variable {tree : σ → Disk} (faithful : Faithful tree)
include faithful

theorem Clears.cons {path : Path} {paths : List Path} {before middle after : σ}
    (first : Clears tree [path] before middle) (second : Clears tree paths middle after) :
    Clears tree (path :: paths) before after := by
  have places := first.extended.grows.place_eq
  refine ⟨trans_of Later first.later second.later, first.extended.trans second.extended,
    ?_, ?_, ?_⟩
  · intro place outside
    rw [List.map_cons, List.mem_cons, not_or] at outside
    rw [second.kept place (by rw [places]; exact outside.2),
      first.kept place (by simpa using outside.1)]
  · intro place
    rcases second.only place with same | none
    · rw [same]
      exact first.only place
    · exact .inr none
  · rw [List.forall_mem_cons]
    constructor
    · intro removable
      have nothing := first.gone path List.mem_cons_self removable
      rcases second.only ((tree before).place path) with same | none
      · rw [same, nothing]
      · exact none
    · intro other member removable
      have nothing := second.gone other member (removable.of_later faithful first.later)
      rwa [places] at nothing

theorem removeFile_clears (path : Path) (before : σ) :
    Clears tree [path] before
      ((Host.removeFile path : StateM σ (Except FileFault Unit)) before).2 := by
  have later := (Operation.removeFile path before).later
  cases ended : (Host.removeFile path : StateM σ (Except FileFault Unit)) before with
  | mk result after =>
    rw [ended] at later
    cases result with
    | ok =>
      obtain ⟨extended, files⟩ := removeFile_eq_ok ((faithful.removeFile path).done _ _ ended)
      refine ⟨later, extended, ?_, ?_, ?_⟩
      · intro place outside
        rw [files, Function.update_of_ne (by simpa using outside)]
      · intro place
        rw [files]
        by_cases same : place = (tree before).place path
        · exact .inr (by rw [same, Function.update_self])
        · exact .inl (Function.update_of_ne same _ _)
      · intro other member _
        rw [List.mem_singleton.mp member, files, Function.update_self]
    | error fault =>
      have same := (faithful.removeFile path).failed _ _ _ ended
      dsimp only
      refine ⟨later, by rw [same]; exact Extends.refl _ _, fun _ _ => by rw [same],
        fun _ => .inl (by rw [same]), ?_⟩
      intro other member removable
      obtain rfl := List.mem_singleton.mp member
      rw [same]
      by_contra held
      obtain ⟨start, created, made, since⟩ := removable.created
      have done := faithful.removable other start created before _ made since
        (removeFile_eq_ok_iff.mpr ⟨removable.reaches, held, rfl⟩)
      rw [ended] at done
      cases done

theorem removeAll_clears (paths : List Path) (before : σ) :
    Clears tree paths before ((removeAll paths : StateM σ Unit) before).2 := by
  induction paths generalizing before with
  | nil =>
    exact ⟨refl_of Later before, Extends.refl _ _, fun _ _ => rfl, fun _ => .inl rfl,
      fun _ member => nomatch member⟩
  | cons path paths ih => exact (removeFile_clears faithful path before).cons faithful (ih _)

end Removal

/-! Where a writing ends. -/

section Runs

variable {σ : Type} [Host (StateM σ)] {before after : σ} {error : GeneratorError}

theorem writeTemporary_failed {artifact : Artifact}
    (failed : (writeTemporary artifact : Attempt (StateM σ) Unit) before = (.error error, after)) :
    (createWithParents artifact.temporary : Attempt (StateM σ) Unit) before =
        (.error error, after) ∨
      ∃ middle fault,
        (createWithParents artifact.temporary : Attempt (StateM σ) Unit) before =
          (.ok (), middle) ∧
        (Host.writeFile artifact.temporary artifact.text : StateM σ (Except FileFault Unit))
          middle = (.error fault, after) ∧
        error = ⟨artifact.path, .generate fault⟩ := by
  rw [writeTemporary, run_bind_error_iff] at failed
  rcases failed with early | ⟨⟨⟩, middle, created, stopped⟩
  · exact .inl early
  · obtain ⟨fault, stopped, blamed⟩ := (run_blaming_error_iff _ _ _ _ _ _).mp stopped
    exact .inr ⟨middle, fault, created, stopped, blamed⟩

/-- The temporary files of the artifacts before the failing one were written, and are removed
together with its own. -/
theorem writeTemporaries_failed {written : List Path} {artifacts : List Artifact}
    (failed : (writeTemporaries written artifacts : Attempt (StateM σ) Unit) before =
      (.error error, after)) :
    ∃ early artifact late middle last, artifacts = early ++ artifact :: late ∧
      (writeTemporaries written early : Attempt (StateM σ) Unit) before = (.ok (), middle) ∧
      (writeTemporary artifact : Attempt (StateM σ) Unit) middle = (.error error, last) ∧
      after = ((removeAll (written ++ (early ++ [artifact]).map Artifact.temporary) :
        StateM σ Unit) last).2 := by
  induction artifacts generalizing written before with
  | nil => cases failed
  | cons artifact artifacts ih =>
    rw [writeTemporaries, run_bind_error_iff] at failed
    rcases failed with cleaned | ⟨⟨⟩, middle, done, others⟩
    · obtain ⟨last, stopped, rfl⟩ := (run_cleaningUp_error_iff _ _ _ _ _).mp cleaned
      exact ⟨[], artifact, artifacts, before, last, rfl, rfl, stopped, rfl⟩
    · obtain ⟨early, failing, late, ready, last, rfl, staged, stopped, rfl⟩ := ih others
      refine ⟨artifact :: early, failing, late, ready, last, rfl, ?_, stopped, ?_⟩
      · rw [writeTemporaries, run_bind_ok_iff]
        exact ⟨(), middle, done, staged⟩
      · rw [List.append_assoc]
        rfl

/-- The artifacts before the failing one have taken their places, and the temporary files of all
others are removed. -/
theorem moveIntoPlace_failed {artifacts : List Artifact}
    (failed : (moveIntoPlace artifacts : Attempt (StateM σ) Unit) before = (.error error, after)) :
    ∃ early artifact late middle last fault, artifacts = early ++ artifact :: late ∧
      (moveIntoPlace early : Attempt (StateM σ) Unit) before = (.ok (), middle) ∧
      (Host.rename artifact.temporary artifact.path : StateM σ (Except FileFault Unit)) middle =
        (.error fault, last) ∧
      error = ⟨artifact.path, .generate fault⟩ ∧
      after = ((removeAll ((artifact :: late).map Artifact.temporary) : StateM σ Unit) last).2 := by
  induction artifacts generalizing before with
  | nil => cases failed
  | cons artifact artifacts ih =>
    rw [moveIntoPlace, run_bind_error_iff] at failed
    rcases failed with cleaned | ⟨⟨⟩, middle, done, others⟩
    · obtain ⟨last, unmoved, rfl⟩ := (run_cleaningUp_error_iff _ _ _ _ _).mp cleaned
      obtain ⟨fault, stopped, blamed⟩ := (run_blaming_error_iff _ _ _ _ _ _).mp unmoved
      exact ⟨[], artifact, artifacts, before, last, fault, rfl, rfl, stopped, blamed, rfl⟩
    · rcases (run_bind_error_iff _ _ _ _ _).mp others with mute | ⟨⟨⟩, told, notified, rest⟩
      · cases mute
      · obtain ⟨early, failing, late, ready, last, fault, rfl, moved, stopped, blamed, rfl⟩ :=
          ih rest
        refine ⟨artifact :: early, failing, late, ready, last, fault, rfl, ?_, stopped, blamed,
          rfl⟩
        rw [moveIntoPlace, run_bind_ok_iff]
        refine ⟨(), middle, ?_, ?_⟩
        · rw [run_cleaningUp_ok_iff] at done ⊢
          exact done
        · rw [run_bind_ok_iff]
          exact ⟨(), told, notified, moved⟩

end Runs

/-- How a writing ends with an error: at making a temporary file, at writing into it, or at moving
it into place. The two lists are the artifacts whose temporary files were made until then, and
those that have taken their places. -/
inductive Aborted {σ : Type} [Host (StateM σ)] (artifacts : List Artifact) (before : σ)
    (error : GeneratorError) : σ → List Artifact → List Artifact → Prop
  | making {early late : List Artifact} {artifact : Artifact} {middle last : σ}
      (split : artifacts = early ++ artifact :: late)
      (staged : (writeTemporaries [] early : Attempt (StateM σ) Unit) before = (.ok (), middle))
      (stopped : (createWithParents artifact.temporary : Attempt (StateM σ) Unit) middle =
        (.error error, last)) :
      Aborted artifacts before error
        ((removeAll ((early ++ [artifact]).map Artifact.temporary) : StateM σ Unit) last).2 early []
  | filling {early late : List Artifact} {artifact : Artifact} {middle made last : σ}
      {fault : FileFault} (split : artifacts = early ++ artifact :: late)
      (staged : (writeTemporaries [] early : Attempt (StateM σ) Unit) before = (.ok (), middle))
      (created : (createWithParents artifact.temporary : Attempt (StateM σ) Unit) middle =
        (.ok (), made))
      (stopped : (Host.writeFile artifact.temporary artifact.text :
        StateM σ (Except FileFault Unit)) made = (.error fault, last))
      (blamed : error = ⟨artifact.path, .generate fault⟩) :
      Aborted artifacts before error
        ((removeAll ((early ++ [artifact]).map Artifact.temporary) : StateM σ Unit) last).2
        (early ++ [artifact]) []
  | moving {early late : List Artifact} {artifact : Artifact} {middle ready last : σ}
      {fault : FileFault} (split : artifacts = early ++ artifact :: late)
      (staged : (writeTemporaries [] artifacts : Attempt (StateM σ) Unit) before =
        (.ok (), middle))
      (installed : (moveIntoPlace early : Attempt (StateM σ) Unit) middle = (.ok (), ready))
      (stopped : (Host.rename artifact.temporary artifact.path :
        StateM σ (Except FileFault Unit)) ready = (.error fault, last))
      (blamed : error = ⟨artifact.path, .generate fault⟩) :
      Aborted artifacts before error
        ((removeAll ((artifact :: late).map Artifact.temporary) : StateM σ Unit) last).2
        artifacts early

theorem aborted_of_writeArtifacts {σ : Type} [Host (StateM σ)] {artifacts : List Artifact}
    {before after : σ} {error : GeneratorError}
    (failed : (writeArtifacts artifacts : Attempt (StateM σ) Unit) before =
      (.error error, after)) :
    ∃ created moved, Aborted artifacts before error after created moved := by
  rw [writeArtifacts, run_bind_error_iff] at failed
  rcases failed with unwritten | ⟨⟨⟩, middle, staged, unmoved⟩
  · obtain ⟨early, artifact, late, middle, last, split, staged, stopped, rfl⟩ :=
      writeTemporaries_failed unwritten
    rw [List.nil_append]
    rcases writeTemporary_failed stopped with unmade | ⟨made, fault, created, unfilled, blamed⟩
    · exact ⟨early, [], .making split staged unmade⟩
    · exact ⟨early ++ [artifact], [], .filling split staged created unfilled blamed⟩
  · obtain ⟨early, artifact, late, ready, last, fault, split, installed, stopped, blamed, rfl⟩ :=
      moveIntoPlace_failed unmoved
    exact ⟨artifacts, early, .moving split staged installed stopped blamed⟩

/-- The causes that end a generation before anything is written. -/
def Cause.precedesWriting : Cause → Bool
  | .sourceFile _ | .unreadable _ | .inconsistent _ | .opcodeRange _ => true
  | .outputDirectory _ | .outputFile _ | .generate _ => false

section Causes

variable {σ : Type} [Host (StateM σ)] {before after : σ} {error : GeneratorError}

theorem not_precedesWriting_of_createWithParents {path : Path}
    (failed : (createWithParents path : Attempt (StateM σ) Unit) before =
      (.error error, after)) : error.cause.precedesWriting = false := by
  unfold createWithParents at failed
  cases above : path.parent? with
  | none =>
    rw [above] at failed
    obtain ⟨fault, _, rfl⟩ := (run_blaming_error_iff _ _ _ _ _ _).mp failed
    rfl
  | some parent =>
    rw [above] at failed
    rcases (run_bind_error_iff _ _ _ _ _).mp failed with unmade | ⟨⟨⟩, _, _, uncreated⟩
    · obtain ⟨fault, _, rfl⟩ := (run_blaming_error_iff _ _ _ _ _ _).mp unmade
      rfl
    · obtain ⟨fault, _, rfl⟩ := (run_blaming_error_iff _ _ _ _ _ _).mp uncreated
      rfl

theorem Aborted.not_precedesWriting {artifacts created moved : List Artifact}
    (aborted : Aborted artifacts before error after created moved) :
    error.cause.precedesWriting = false := by
  cases aborted with
  | making _ _ stopped => exact not_precedesWriting_of_createWithParents stopped
  | filling _ _ _ _ blamed =>
    subst blamed
    rfl
  | moving _ _ _ _ blamed =>
    subst blamed
    rfl

end Causes

end DecoderTables
