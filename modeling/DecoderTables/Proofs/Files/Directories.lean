import DecoderTables.Proofs.Files.Hosts

/-!
Directories that are there already. They are never lost, and making them again changes nothing.
-/

namespace DecoderTables

namespace Disk

variable {disk before after : Disk} {path : Path}

theorem isDirectory_iff (disk : Disk) (path : Path) :
    disk.isDirectory path = true ↔ ∃ target, disk.target path = .ok target ∧
      ∀ name ∈ target.name, disk.child? target.directory name = .ok (some .directory) := by
  have known : disk.isDirectory path = true ↔ disk.node path = .ok .directory := by
    unfold isDirectory
    split
    · next same => simp [same]
    · next other => simpa using other
  rw [known, node, bind_eq_ok_iff]
  apply exists_congr
  intro target
  apply and_congr_right
  intro
  cases target.name with
  | none => simp [pure, Except.pure]
  | some name =>
    simp only [bind_eq_ok_iff, Option.mem_def, Option.some.injEq, forall_eq']
    apply Iff.intro
    · intro given
      obtain ⟨node, child, made⟩ := given
      split at made
      · cases made
      · split at made
        · cases made
        · cases made
      · exact child
    · intro child
      exact ⟨some .directory, child, rfl⟩

theorem isDirectory_of_grows (grows : Grows before after)
    (known : before.isDirectory path = true) : after.isDirectory path = true := by
  rw [isDirectory_iff] at known ⊢
  obtain ⟨target, found, child⟩ := known
  refine ⟨target, target_of_grows grows found, fun name named => ?_⟩
  obtain ⟨short, held⟩ := (child?_eq_ok_iff _ _ _ _).mp (child name named)
  exact (child?_eq_ok_iff _ _ _ _).mpr ⟨short, grows.directories _ held⟩

theorem makeDirectory_of_isDirectory (known : disk.isDirectory path = true) :
    disk.makeDirectory path = .error .alreadyExists := by
  obtain ⟨⟨directory, name, slash⟩, found, child⟩ := (isDirectory_iff disk path).mp known
  rw [makeDirectory, found]
  cases name with
  | none => rfl
  | some name =>
    change (disk.child? directory name >>= _) = _
    rw [child name rfl]
    rfl

theorem isDirectory_of_makeDirectory (made : disk.makeDirectory path = .ok after) :
    after.isDirectory path = true := by
  have grows := (makeDirectory_eq_ok made).grows
  obtain ⟨⟨directory, name, slash⟩, found, made⟩ := (bind_eq_ok_iff _ _ _).mp made
  cases name with
  | none => cases made
  | some name =>
    obtain ⟨node, child, made⟩ := (bind_eq_ok_iff _ _ _).mp made
    cases node with
    | some node => cases made
    | none =>
      cases made
      refine (isDirectory_iff _ _).mpr ⟨_, target_of_grows grows found, fun name named => ?_⟩
      cases named
      refine (child?_eq_ok_iff _ _ _ _).mpr ⟨((child?_eq_ok_iff _ _ _ _).mp child).1, ?_⟩
      rw [get?_put _ (by simp), if_pos rfl]

/-- The directory of a path is there. -/
def Sheltered (disk : Disk) (path : Path) : Prop :=
  ∀ parent ∈ path.parent?, parent.isEmpty = true ∨ disk.isDirectory parent = true

theorem Sheltered.of_grows (sheltered : before.Sheltered path) (grows : Grows before after) :
    after.Sheltered path :=
  fun parent above => (sheltered parent above).imp_right (isDirectory_of_grows grows)

end Disk

open Disk

section Machines

variable {before after : Machine} {path : Path}

theorem makeDirectory_done {disk : Disk} (made : before.disk.makeDirectory path = .ok disk) :
    (Host.makeDirectory path : StateM Machine (Except FileFault Unit)) before =
      (.ok (), { before with disk }) :=
  change_of_ok made

theorem makeDirectory_failed {fault : FileFault}
    (refused : before.disk.makeDirectory path = .error fault) :
    (Host.makeDirectory path : StateM Machine (Except FileFault Unit)) before =
      (.error fault, before) :=
  change_of_error refused

/-- What is done when a directory could not be made. -/
theorem run_ifDirectory (fault : FileFault) :
    (do if ← Host.isDirectory path then return .ok () else return .error fault :
      StateM Machine (Except FileFault Unit)) before =
      (if before.disk.isDirectory path = true then .ok () else .error fault, before) := by
  have asked : (Host.isDirectory path : StateM Machine Bool) before =
      (before.disk.isDirectory path, before) := rfl
  rw [run_bind_of_eq asked]
  cases before.disk.isDirectory path with
  | true => rfl
  | false => rfl

theorem isDirectory_of_fault {fault : FileFault}
    (done : (do if ← Host.isDirectory path then return .ok () else return .error fault :
      StateM Machine (Except FileFault Unit)) before = (.ok (), after)) :
    after.disk.isDirectory path = true := by
  rw [run_ifDirectory] at done
  cases known : before.disk.isDirectory path with
  | true =>
    rw [known] at done
    cases done
    exact known
  | false =>
    rw [known] at done
    cases done

theorem isDirectory_of_ensureDirectory
    (done : (ensureDirectory path : StateM Machine (Except FileFault Unit)) before =
      (.ok (), after)) : after.disk.isDirectory path = true := by
  unfold ensureDirectory at done
  cases made : before.disk.makeDirectory path with
  | ok disk =>
    rw [run_bind_of_eq (makeDirectory_done made)] at done
    cases done
    exact isDirectory_of_makeDirectory made
  | error fault =>
    rw [run_bind_of_eq (makeDirectory_failed made)] at done
    exact isDirectory_of_fault done

theorem isDirectory_of_makeDirectories {above : List Path} (filled : path.isEmpty = false)
    (done : (makeDirectories (path :: above) : StateM Machine (Except FileFault Unit)) before =
      (.ok (), after)) : after.disk.isDirectory path = true := by
  unfold makeDirectories at done
  rw [if_neg (by simp [filled])] at done
  cases made : before.disk.makeDirectory path with
  | ok disk =>
    rw [run_bind_of_eq (makeDirectory_done made)] at done
    cases done
    exact isDirectory_of_makeDirectory made
  | error fault =>
    rw [run_bind_of_eq (makeDirectory_failed made)] at done
    by_cases missing : fault = .notFound
    · subst missing
      cases run : (makeDirectories above : StateM Machine (Except FileFault Unit)) before with
      | mk result middle =>
        dsimp only at done
        rw [run_bind_of_eq run] at done
        cases result with
        | ok => exact isDirectory_of_ensureDirectory done
        | error fault => cases done
    · cases fault <;> first | exact absurd rfl missing | exact isDirectory_of_fault done

/-- A directory that is there is not made again. -/
theorem makeDirectories_again {above : List Path}
    (known : path.isEmpty = true ∨ before.disk.isDirectory path = true) :
    (makeDirectories (path :: above) : StateM Machine (Except FileFault Unit)) before =
      (.ok (), before) := by
  unfold makeDirectories
  split
  · rfl
  · next filled =>
      have there := known.resolve_left filled
      rw [run_bind_of_eq (makeDirectory_failed (makeDirectory_of_isDirectory there))]
      refine (run_ifDirectory _).trans ?_
      rw [if_pos there]

end Machines

end DecoderTables
