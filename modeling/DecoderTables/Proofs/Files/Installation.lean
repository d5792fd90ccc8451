import DecoderTables.Proofs.Files.Hosts
import Mathlib.Data.List.Nodup

/-!
What artifacts leave behind when all of them were written. On the contents of files the writing is
two passes: the first stages each text at its temporary file, the second settles each temporary
file at its place. The passes meet where the file of one artifact is the temporary file of another.
-/

namespace DecoderTables
open Disk

/-! The two passes on the contents of files. -/

abbrev Contents := Place → Option ByteArray

section Passes

variable (place : Path → Place)

/-- The text of an artifact at its temporary file. -/
def stage (contents : Contents) (artifact : Artifact) : Contents :=
  Function.update contents (place artifact.temporary) (some artifact.text.toUTF8)

/-- What the temporary file holds, moved to the file of the artifact. -/
def settle (contents : Contents) (artifact : Artifact) : Contents :=
  Function.update (Function.update contents (place artifact.temporary) none)
    (place artifact.path) (contents (place artifact.temporary))

variable {place} {artifacts : List Artifact} {contents : Contents} {other : Place}

theorem stage_of_not_mem (apart : other ∉ artifacts.map (place ·.temporary)) :
    artifacts.foldl (stage place) contents other = contents other := by
  induction artifacts generalizing contents with
  | nil => rfl
  | cons artifact artifacts ih =>
    rw [List.map_cons, List.mem_cons, not_or] at apart
    rw [List.foldl_cons, ih apart.2, stage, Function.update_of_ne apart.1]

theorem stage_temporary (distinct : (artifacts.map (place ·.temporary)).Nodup) :
    ∀ artifact ∈ artifacts, artifacts.foldl (stage place) contents (place artifact.temporary) =
      some artifact.text.toUTF8 := by
  induction artifacts generalizing contents with
  | nil => exact fun _ member => nomatch member
  | cons first artifacts ih =>
    rw [List.map_cons, List.nodup_cons] at distinct
    rw [List.forall_mem_cons]
    constructor
    · rw [List.foldl_cons, stage_of_not_mem distinct.1, stage, Function.update_self]
    · exact ih distinct.2

theorem settle_of_not_mem (files : other ∉ artifacts.map (place ·.path))
    (temporaries : other ∉ artifacts.map (place ·.temporary)) :
    artifacts.foldl (settle place) contents other = contents other := by
  induction artifacts generalizing contents with
  | nil => rfl
  | cons artifact artifacts ih =>
    rw [List.map_cons, List.mem_cons, not_or] at files temporaries
    rw [List.foldl_cons, ih files.2 temporaries.2, settle, Function.update_of_ne files.1,
      Function.update_of_ne temporaries.1]

/-- Nothing appears but at the files of the artifacts. -/
theorem settle_eq_none (files : other ∉ artifacts.map (place ·.path))
    (nothing : contents other = none) :
    artifacts.foldl (settle place) contents other = none := by
  induction artifacts generalizing contents with
  | nil => exact nothing
  | cons artifact artifacts ih =>
    rw [List.map_cons, List.mem_cons, not_or] at files
    rw [List.foldl_cons]
    apply ih files.2
    rw [settle, Function.update_of_ne files.1]
    by_cases same : other = place artifact.temporary
    · rw [same, Function.update_self]
    · rw [Function.update_of_ne same, nothing]

theorem settle_temporary_eq_none {artifact : Artifact} (member : artifact ∈ artifacts)
    (free : place artifact.temporary ∉ artifacts.map (place ·.path)) :
    artifacts.foldl (settle place) contents (place artifact.temporary) = none := by
  induction artifacts generalizing contents with
  | nil => exact nomatch member
  | cons first artifacts ih =>
    rw [List.map_cons, List.mem_cons, not_or] at free
    rw [List.foldl_cons]
    rcases List.mem_cons.mp member with rfl | later
    · apply settle_eq_none free.2
      rw [settle, Function.update_of_ne free.1, Function.update_self]
    · exact ih later free.2

theorem settle_file (files : (artifacts.map (place ·.path)).Nodup)
    (temporaries : (artifacts.map (place ·.temporary)).Nodup)
    (ordered : artifacts.Pairwise fun earlier later => place earlier.path ≠ place later.temporary)
    (staged : ∀ artifact ∈ artifacts, contents (place artifact.temporary) =
      some artifact.text.toUTF8) :
    ∀ artifact ∈ artifacts, artifacts.foldl (settle place) contents (place artifact.path) =
      some artifact.text.toUTF8 := by
  induction artifacts generalizing contents with
  | nil => exact fun _ member => nomatch member
  | cons first artifacts ih =>
    rw [List.map_cons, List.nodup_cons] at files temporaries
    obtain ⟨firstOrdered, ordered⟩ := List.pairwise_cons.mp ordered
    obtain ⟨firstStaged, staged⟩ := List.forall_mem_cons.mp staged
    rw [List.forall_mem_cons]
    constructor
    -- the later moves neither take the first file away nor put another in its place
    · have untouched : place first.path ∉ artifacts.map (place ·.temporary) := by
        intro member
        obtain ⟨later, known, same⟩ := List.mem_map.mp member
        exact firstOrdered later known same.symm
      rw [List.foldl_cons, settle_of_not_mem files.1 untouched, settle, Function.update_self,
        firstStaged]
    · apply ih files.2 temporaries.2 ordered
      intro later known
      have apart : place later.temporary ≠ place first.temporary :=
        fun same => temporaries.1 (same ▸ List.mem_map_of_mem known)
      rw [settle, Function.update_of_ne (firstOrdered later known).symm,
        Function.update_of_ne apart]
      exact staged later known

variable (contents) in
/-- A file that a later artifact uses as its temporary file is gone afterwards. -/
theorem ordered_of_settle (files : (artifacts.map (place ·.path)).Nodup)
    (there : ∀ artifact ∈ artifacts,
      artifacts.foldl (settle place) contents (place artifact.path) ≠ none) :
    artifacts.Pairwise fun earlier later => place earlier.path ≠ place later.temporary := by
  induction artifacts generalizing contents with
  | nil => exact List.Pairwise.nil
  | cons first artifacts ih =>
    rw [List.map_cons, List.nodup_cons] at files
    obtain ⟨firstThere, there⟩ := List.forall_mem_cons.mp there
    refine List.pairwise_cons.mpr ⟨?_, ih _ files.2 there⟩
    intro later known same
    apply firstThere
    rw [List.foldl_cons, same]
    exact settle_temporary_eq_none known (same ▸ files.1)

end Passes

/-! The runs of both passes on a host. -/

/-- The directories above the temporary files of artifacts. -/
def directoriesAbove (artifacts : List Artifact) : List Path :=
  artifacts.flatMap (·.temporary.above)

section Runs

variable {σ : Type} [Host (StateM σ)]

/-- A path that leads to a place where the host has created a file. -/
structure Removable (tree : σ → Disk) (path : Path) (now : σ) : Prop where
  reaches : (tree now).Reaches path ((tree now).place path)
  created : ∃ before created,
    (Host.createFile path : StateM σ (Except FileFault Unit)) before = (.ok (), created) ∧
      Later created now

variable {tree : σ → Disk} {before after : σ} (faithful : Faithful tree)
include faithful

theorem Removable.of_later {path : Path} (removable : Removable tree path before)
    (later : Later before after) : Removable tree path after := by
  have grows := later.grows faithful
  obtain ⟨start, created, done, since⟩ := removable.created
  refine ⟨?_, start, created, done, trans_of Later since later⟩
  rw [grows.place_eq]
  exact removable.reaches.of_grows grows

theorem createWithParents_ends {path : Path}
    (done : (createWithParents path : Attempt (StateM σ) Unit) before = (.ok (), after)) :
    Extends (path.above.map (tree before).place) (tree before) (tree after) ∧
      (tree after).file? =
        Function.update (tree before).file? ((tree before).place path) (some .empty) ∧
      Removable tree path after := by
  obtain ⟨middle, prepared, created⟩ := createWithParents_done faithful done
  have written := (faithful.createFile path).done _ _ created
  obtain ⟨extended, files⟩ := writeFile_eq_ok written
  have reaches := ((writeFile_eq_ok_iff _).mp written).1
  rw [prepared.files, prepared.grows.place_eq] at files
  refine ⟨prepared.toExtends.trans (extended.mono (List.nil_subset _)), files, ?_,
    middle, after, created, refl_of Later after⟩
  rw [extended.grows.place_eq]
  exact reaches.of_grows extended.grows

theorem writeTemporary_ends {artifact : Artifact}
    (done : (writeTemporary artifact : Attempt (StateM σ) Unit) before = (.ok (), after)) :
    Extends (artifact.temporary.above.map (tree before).place) (tree before) (tree after) ∧
      (tree after).file? = stage (tree before).place (tree before).file? artifact ∧
      Removable tree artifact.temporary after := by
  rw [writeTemporary, run_bind_ok_iff] at done
  obtain ⟨⟨⟩, middle, created, filled⟩ := done
  obtain ⟨first, empty, removable⟩ := createWithParents_ends faithful created
  rw [run_blaming_ok_iff] at filled
  obtain ⟨second, files⟩ := writeFile_eq_ok (faithful.written _ _ _ _ filled)
  rw [empty, first.grows.place_eq, Function.update_idem] at files
  have later : Later middle after :=
    Always.of_eq (fun state => (Operation.writeFile _ _ state).later) filled
  exact ⟨first.trans (second.mono (List.nil_subset _)), files,
    removable.of_later faithful later⟩

theorem writeTemporaries_run {written : List Path} {artifacts : List Artifact}
    (done : (writeTemporaries written artifacts : Attempt (StateM σ) Unit) before =
      (.ok (), after)) :
    Extends ((directoriesAbove artifacts).map (tree before).place) (tree before) (tree after) ∧
      (tree after).file? = artifacts.foldl (stage (tree before).place) (tree before).file? ∧
      ∀ artifact ∈ artifacts, Removable tree artifact.temporary after := by
  induction artifacts generalizing written before with
  | nil =>
    cases done
    exact ⟨Extends.refl _ _, rfl, fun _ member => nomatch member⟩
  | cons artifact artifacts ih =>
    rw [writeTemporaries, run_bind_ok_iff] at done
    obtain ⟨⟨⟩, middle, one, others⟩ := done
    obtain ⟨first, staged, removable⟩ :=
      writeTemporary_ends faithful ((run_cleaningUp_ok_iff _ _ _ _).mp one)
    obtain ⟨second, rest, later⟩ := ih others
    rw [staged, first.grows.place_eq] at rest
    rw [first.grows.place_eq] at second
    have since := (later_writeTemporaries _ _).of_eq others
    refine ⟨?_, rest, List.forall_mem_cons.mpr ⟨removable.of_later faithful since, later⟩⟩
    rw [directoriesAbove, List.flatMap_cons, List.map_append]
    exact (first.mono (List.subset_append_left _ _)).trans
      (second.mono (List.subset_append_right _ _))

theorem moveIntoPlace_run {artifacts : List Artifact}
    (done : (moveIntoPlace artifacts : Attempt (StateM σ) Unit) before = (.ok (), after)) :
    Extends [] (tree before) (tree after) ∧
      (∀ artifact ∈ artifacts,
        (tree after).Reaches artifact.path ((tree before).place artifact.path)) ∧
      (tree after).file? = artifacts.foldl (settle (tree before).place) (tree before).file? := by
  induction artifacts generalizing before with
  | nil =>
    cases done
    exact ⟨Extends.refl _ _, fun _ member => (nomatch member), rfl⟩
  | cons artifact artifacts ih =>
    rw [moveIntoPlace, run_bind_ok_iff] at done
    obtain ⟨⟨⟩, middle, one, others⟩ := done
    rw [run_bind_ok_iff] at others
    obtain ⟨⟨⟩, told, notified, others⟩ := others
    have same : tree told = tree middle := by
      cases notified
      exact faithful.notify (.generated artifact.path) middle
    have renamed := (faithful.rename _ _).done _ _
      ((run_blaming_ok_iff _ _ _ _ _ _).mp ((run_cleaningUp_ok_iff _ _ _ _).mp one))
    obtain ⟨first, reaches, bytes, held, settled⟩ := rename_eq_ok renamed
    obtain ⟨second, reached, rest⟩ := ih others
    rw [← held] at settled
    rw [same] at second reached rest
    rw [settled, first.grows.place_eq] at rest
    rw [first.grows.place_eq] at reached
    exact ⟨first.trans second,
      List.forall_mem_cons.mpr ⟨reaches.of_grows second.grows, reached⟩, rest⟩

end Runs

section Machines

variable {before after : Machine} {artifacts : List Artifact}

theorem writeTemporaries_ends {written : List Path}
    (done : Ends (writeTemporaries written artifacts) before () after) :
    Grows before.disk after.disk ∧ after.disk.file? =
      artifacts.foldl (stage before.disk.place) before.disk.file? := by
  obtain ⟨extended, files, _⟩ := writeTemporaries_run Machine.faithful ((ends_iff _ _ _ _).mp done)
  exact ⟨extended.grows, files⟩

theorem moveIntoPlace_ends (done : Ends (moveIntoPlace artifacts) before () after) :
    Grows before.disk after.disk ∧
      (∀ artifact ∈ artifacts,
        after.disk.Reaches artifact.path (before.disk.place artifact.path)) ∧
      after.disk.file? = artifacts.foldl (settle before.disk.place) before.disk.file? := by
  obtain ⟨extended, reached, files⟩ :=
    moveIntoPlace_run Machine.faithful ((ends_iff _ _ _ _).mp done)
  exact ⟨extended.grows, reached, files⟩

end Machines

/-- The file of each artifact holds its text. -/
def Held (after : Disk) (artifacts : List Artifact) : Prop :=
  ∀ artifact ∈ artifacts, after.readFile artifact.path = .ok artifact.text.toUTF8

/-- No temporary file is left, unless an artifact belongs there, and files that have nothing to do
with the artifacts are neither made, changed nor removed. -/
structure Tidy (before after : Disk) (artifacts : List Artifact) : Prop where
  cleaned : ∀ artifact ∈ artifacts,
    before.place artifact.temporary ∉ artifacts.map (before.place ·.path) →
      after.file? (before.place artifact.temporary) = none
  kept : ∀ place, place ∉ artifacts.map (before.place ·.path) →
    place ∉ artifacts.map (before.place ·.temporary) → after.file? place = before.file? place

theorem nodup_temporaries {place : Path → Place} {artifacts : List Artifact}
    (files : (artifacts.map (place ·.path)).Nodup)
    (siblings : ∀ artifact ∈ artifacts, ∃ directory name,
      place artifact.path = directory ++ [name] ∧
        place artifact.temporary = directory ++ [name ++ ".tmp"]) :
    (artifacts.map (place ·.temporary)).Nodup := by
  rw [List.Nodup, List.pairwise_map] at files ⊢
  apply files.imp_of_mem
  intro first second firstMember secondMember differ same
  obtain ⟨directory, name, firstFile, firstTemporary⟩ := siblings first firstMember
  obtain ⟨other, otherName, secondFile, secondTemporary⟩ := siblings second secondMember
  rw [firstTemporary, secondTemporary] at same
  obtain ⟨rfl, names⟩ := List.append_inj' same rfl
  have names := (String.append_left_inj ".tmp").mp (List.singleton_inj.mp names)
  exact differ (by rw [firstFile, secondFile, names])

/-- After a successful writing of artifacts with distinct files everything is tidy, and all files
hold their texts exactly when no artifact has the temporary file of a later one. -/
theorem writeArtifacts_held_iff {artifacts : List Artifact} {before after : Machine}
    (distinct : (artifacts.map (before.disk.place ·.path)).Nodup)
    (done : Ends (writeArtifacts artifacts) before () after) :
    Tidy before.disk after.disk artifacts ∧
      (Held after.disk artifacts ↔ artifacts.Pairwise fun earlier later =>
        before.disk.place earlier.path ≠ before.disk.place later.temporary) := by
  rw [writeArtifacts, ends_bind_iff] at done
  obtain ⟨⟨⟩, middle, staging, settling⟩ := done
  obtain ⟨first, staged⟩ := writeTemporaries_ends staging
  obtain ⟨second, reached, settled⟩ := moveIntoPlace_ends settling
  rw [first.place_eq] at reached settled
  have temporaries : (artifacts.map (before.disk.place ·.temporary)).Nodup := by
    apply nodup_temporaries distinct
    intro artifact member
    rw [← (first.trans second).place_eq]
    exact (reached artifact member).place_temporary
  have held : Held after.disk artifacts ↔ ∀ artifact ∈ artifacts,
      after.disk.file? (before.disk.place artifact.path) = some artifact.text.toUTF8 :=
    forall₂_congr fun artifact member => (reached artifact member).readFile_eq_ok_iff _
  refine ⟨⟨?_, ?_⟩, ?_⟩
  · intro artifact member free
    rw [settled]
    exact settle_temporary_eq_none member free
  · intro place files temporary
    rw [settled, settle_of_not_mem files temporary, staged, stage_of_not_mem temporary]
  · rw [held, settled]
    apply Iff.intro
    · intro there
      apply ordered_of_settle middle.disk.file? distinct
      intro artifact member nothing
      rw [there artifact member] at nothing
      cases nothing
    · intro ordered
      apply settle_file distinct temporaries ordered
      rw [staged]
      exact stage_temporary temporaries

/-- A machine with a stale header and with a file of its own. -/
def sampleMachine : Machine where
  disk := { nodes := [(["b.h"], .file "stale".toUTF8), (["notes"], .file "kept".toUTF8)] }

def sampleArtifacts : List Artifact :=
  [⟨"out/a.h", "first"⟩, ⟨"b.h", "second"⟩]

theorem writeArtifacts_held_sample :
    ∃ after, Ends (writeArtifacts sampleArtifacts) sampleMachine () after ∧
      Tidy sampleMachine.disk after.disk sampleArtifacts ∧ Held after.disk sampleArtifacts := by
  have done := ends_of_isOk (writeArtifacts sampleArtifacts) sampleMachine (by decide +kernel)
  obtain ⟨tidy, held⟩ := writeArtifacts_held_iff (by decide +kernel) done
  exact ⟨_, done, tidy, held.mpr (by decide +kernel)⟩

/-- The first artifact takes the place of the temporary file of the second. -/
def crossedArtifacts : List Artifact :=
  [⟨"a.tmp", "first"⟩, ⟨"a", "second"⟩]

theorem exists_lost_artifact :
    ¬∀ (artifacts : List Artifact) (before after : Machine),
      (artifacts.map (before.disk.place ·.path)).Nodup →
        Ends (writeArtifacts artifacts) before () after →
          Held after.disk artifacts ∧ Tidy before.disk after.disk artifacts := by
  intro all
  let write : Attempt (StateM Machine) Unit := writeArtifacts crossedArtifacts
  let before : Machine := { disk := Disk.empty }
  have done : Ends write before () (write before).2 := ends_of_isOk write before (by decide +kernel)
  have held := (all crossedArtifacts before _ (by decide +kernel) done).1
  have lost : ((write before).2.disk.readFile "a.tmp").isOk = false := by decide +kernel
  rw [held ⟨"a.tmp", "first"⟩ List.mem_cons_self] at lost
  cases lost

end DecoderTables
