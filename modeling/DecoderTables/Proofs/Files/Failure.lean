import DecoderTables.Proofs.Files.Aborted
import DecoderTables.Proofs.Files.Separation

/-!
What is left of the artifacts when one of them cannot be written. Whatever fails and whenever, the
files that had not taken their places are as they were, and no temporary file stays.
-/

namespace DecoderTables
open Disk

/-! What is left behind. -/

/-- The paths lead to different places, and none of them to a directory above another. -/
structure Apart (disk : Disk) (paths : List Path) : Prop where
  distinct : (paths.map disk.place).Nodup
  aside : ∀ path ∈ paths, ∀ other ∈ paths, disk.place path ∉ other.above.map disk.place

/-- What an aborted writing leaves: artifacts that have taken their places hold their texts, those
that have not are as they were, and nothing stays at the temporary files that were made. -/
structure Aftermath (artifacts created moved : List Artifact) (before after : Disk) : Prop where
  working : after.working = before.working
  installed : ∀ artifact ∈ moved,
    after.get? (before.place artifact.path) = some (.file artifact.text.toUTF8)
  kept : ∀ artifact ∈ artifacts, artifact ∉ moved →
    after.get? (before.place artifact.path) = before.get? (before.place artifact.path)
  cleared : ∀ artifact ∈ created, after.get? (before.place artifact.temporary) = none
  spared : ∀ artifact ∈ artifacts, artifact ∉ created →
    after.get? (before.place artifact.temporary) = before.get? (before.place artifact.temporary) ∨
      after.get? (before.place artifact.temporary) = none
  others : ∀ place ∉ (artifactPaths artifacts).map before.place,
    after.get? place = before.get? place ∨
      before.get? place = none ∧ after.get? place = some .directory ∧
        place ∈ (directoriesAbove artifacts).map before.place

section Apartness

variable {disk : Disk} {artifacts : List Artifact} {artifact : Artifact}
  (apart : Apart disk (artifactPaths artifacts))
include apart

theorem Apart.separate : Separate disk.place artifacts :=
  (separate_iff _ _).mpr apart.distinct

theorem Apart.not_mem_directoriesAbove {path : Path} (member : path ∈ artifactPaths artifacts) :
    disk.place path ∉ (directoriesAbove artifacts).map disk.place := by
  intro inside
  obtain ⟨above, known, same⟩ := List.mem_map.mp inside
  obtain ⟨artifact, listed, nearer⟩ := List.mem_flatMap.mp known
  apply apart.aside path member artifact.temporary
    (List.mem_append_right _ (List.mem_map_of_mem listed))
  exact List.mem_map.mpr ⟨above, nearer, same⟩

theorem Apart.path_not_mem_directoriesAbove (member : artifact ∈ artifacts) :
    disk.place artifact.path ∉ (directoriesAbove artifacts).map disk.place :=
  apart.not_mem_directoriesAbove (List.mem_append_left _ (List.mem_map_of_mem member))

theorem Apart.temporary_not_mem_directoriesAbove (member : artifact ∈ artifacts) :
    disk.place artifact.temporary ∉ (directoriesAbove artifacts).map disk.place :=
  apart.not_mem_directoriesAbove (List.mem_append_right _ (List.mem_map_of_mem member))

end Apartness

/-- The tree when the first fault has struck and nothing is removed yet. -/
structure Interim (artifacts created moved : List Artifact) (before now : Disk) : Prop where
  extended : Extends ((directoriesAbove artifacts).map before.place) before now
  listed : created ⊆ artifacts
  movable : moved ⊆ artifacts
  free : ∀ artifact ∈ created, before.get? (before.place artifact.temporary) ≠ some .directory
  installed : ∀ artifact ∈ moved,
    now.file? (before.place artifact.path) = some artifact.text.toUTF8
  kept : ∀ place, place ∉ created.map (before.place ·.temporary) →
    place ∉ moved.map (before.place ·.path) → now.file? place = before.file? place

section Removing

variable {σ : Type} [Host (StateM σ)] {tree : σ → Disk} {before now after : σ}
  {artifacts created moved removed : List Artifact}

/-- What is left when the temporary files of some artifacts are removed, among them all that were
made and have not been moved. -/
theorem Interim.aftermath (interim : Interim artifacts created moved (tree before) (tree now))
    (apart : Apart (tree before) (artifactPaths artifacts)) (known : removed ⊆ artifacts)
    (clears : Clears tree (removed.map Artifact.temporary) now after)
    (gone : ∀ artifact ∈ created,
      artifact ∈ removed ∧ Removable tree artifact.temporary now ∨
        (tree now).file? ((tree before).place artifact.temporary) = none) :
    Aftermath artifacts created moved (tree before) (tree after) := by
  have places := interim.extended.grows.place_eq
  have extended := interim.extended.trans (clears.extended.mono (List.nil_subset _))
  have untouched : ∀ place, place ∉ removed.map ((tree before).place ·.temporary) →
      (tree after).file? place = (tree now).file? place := by
    intro place outside
    apply clears.kept
    rwa [places, List.map_map]
  refine ⟨extended.grows.working, ?_, ?_, ?_, ?_, ?_⟩
  · intro artifact moved
    have outside := apart.separate.path_not_mem_temporaries (interim.movable moved) known
    rw [← file?_eq_some_iff, untouched _ outside]
    exact interim.installed artifact moved
  · intro artifact member unmoved
    apply extended.get?_eq (apart.path_not_mem_directoriesAbove member)
    rw [untouched _ (apart.separate.path_not_mem_temporaries member known)]
    exact interim.kept _ (apart.separate.path_not_mem_temporaries member interim.listed)
      (apart.separate.path_not_mem_files member interim.movable unmoved)
  · intro artifact created
    apply extended.get?_eq_none
      (apart.temporary_not_mem_directoriesAbove (interim.listed created))
      (interim.free artifact created)
    rcases gone artifact created with ⟨listed, removable⟩ | nothing
    · have removal := clears.gone _ (List.mem_map_of_mem listed) removable
      rwa [places] at removal
    · rcases clears.only ((tree before).place artifact.temporary) with same | none
      · rw [same, nothing]
      · exact none
  · intro artifact member uncreated
    have outside := apart.temporary_not_mem_directoriesAbove member
    rcases clears.only ((tree before).place artifact.temporary) with same | none
    · left
      apply extended.get?_eq outside
      rw [same]
      exact interim.kept _
        (apart.separate.temporary_not_mem_temporaries member interim.listed uncreated)
        (apart.separate.temporary_not_mem_files member interim.movable)
    · exact extended.get?_eq_or_none outside none
  · intro place outside
    rw [artifactPaths, List.map_append, List.mem_append, not_or, List.map_map, List.map_map]
      at outside
    apply extended.get?_cases
    rw [untouched place fun inside => outside.2 (List.map_subset _ known inside)]
    exact interim.kept place
      (fun inside => outside.2 (List.map_subset _ interim.listed inside))
      (fun inside => outside.1 (List.map_subset _ interim.movable inside))

end Removing

theorem directoriesAbove_subset {few many : List Artifact} (listed : few ⊆ many) :
    directoriesAbove few ⊆ directoriesAbove many := by
  intro path member
  obtain ⟨artifact, known, nearer⟩ := List.mem_flatMap.mp member
  exact List.mem_flatMap.mpr ⟨artifact, listed known, nearer⟩

theorem listed_of_split {artifacts early late : List Artifact} {artifact : Artifact}
    (split : artifacts = early ++ artifact :: late) :
    early ++ [artifact] ⊆ artifacts ∧
      artifact.temporary.above ⊆ directoriesAbove artifacts := by
  subst split
  constructor
  · rw [List.append_cons early artifact late]
    exact List.subset_append_left _ _
  · intro path nearer
    exact List.mem_flatMap.mpr ⟨artifact, by simp, nearer⟩

section Aborting

variable {σ : Type} [Host (StateM σ)] {tree : σ → Disk} (faithful : Faithful tree)
  {before middle last : σ} {error : GeneratorError}
  {artifacts early late : List Artifact} {artifact : Artifact}
include faithful

/-- All artifacts of some first ones are staged. -/
theorem interim_of_staged (apart : Apart (tree before) (artifactPaths artifacts))
    (part : early.Sublist artifacts)
    (staged : (writeTemporaries [] early : Attempt (StateM σ) Unit) before = (.ok (), middle)) :
    Interim artifacts early [] (tree before) (tree middle) := by
  obtain ⟨extended, files, _⟩ := writeTemporaries_run faithful staged
  have above := directoriesAbove_subset part.subset
  have distinct := (apart.separate.of_sublist part).temporaries
  refine ⟨extended.mono (List.map_subset _ above), part.subset, List.nil_subset _, ?_,
    fun _ member => (nomatch member), ?_⟩
  · intro staged member known
    have held : (tree middle).file? ((tree before).place staged.temporary) =
        some staged.text.toUTF8 := by
      rw [files]
      exact stage_temporary distinct staged member
    exact ne_directory_of_file? held (extended.grows.directories _ known)
  · intro place outside _
    rw [files, stage_of_not_mem outside]

theorem aftermath_of_making (apart : Apart (tree before) (artifactPaths artifacts))
    (split : artifacts = early ++ artifact :: late)
    (staged : (writeTemporaries [] early : Attempt (StateM σ) Unit) before = (.ok (), middle))
    (stopped : (createWithParents artifact.temporary : Attempt (StateM σ) Unit) middle =
      (.error error, last)) :
    Aftermath artifacts early [] (tree before)
      (tree ((removeAll ((early ++ [artifact]).map Artifact.temporary) :
        StateM σ Unit) last).2) := by
  obtain ⟨known, above⟩ := listed_of_split split
  have interim := interim_of_staged faithful apart (split ▸ List.sublist_append_left early _) staged
  have prepared := createWithParents_failed faithful stopped
  rw [interim.extended.grows.place_eq] at prepared
  have now : Interim artifacts early [] (tree before) (tree last) := by
    refine ⟨interim.extended.trans (prepared.toExtends.mono (List.map_subset _ above)),
      interim.listed, interim.movable, interim.free, fun _ member => (nomatch member), ?_⟩
    rw [prepared.files]
    exact interim.kept
  obtain ⟨_, _, removable⟩ := writeTemporaries_run faithful staged
  have later := (later_createWithParents artifact.temporary).of_eq stopped
  apply now.aftermath apart known (removeAll_clears faithful _ last)
  intro other member
  exact .inl ⟨List.mem_append_left _ member, (removable other member).of_later faithful later⟩

theorem aftermath_of_filling {made : σ} {fault : FileFault}
    (apart : Apart (tree before) (artifactPaths artifacts))
    (split : artifacts = early ++ artifact :: late)
    (staged : (writeTemporaries [] early : Attempt (StateM σ) Unit) before = (.ok (), middle))
    (created : (createWithParents artifact.temporary : Attempt (StateM σ) Unit) middle =
      (.ok (), made))
    (stopped : (Host.writeFile artifact.temporary artifact.text :
      StateM σ (Except FileFault Unit)) made = (.error fault, last)) :
    Aftermath artifacts (early ++ [artifact]) [] (tree before)
      (tree ((removeAll ((early ++ [artifact]).map Artifact.temporary) :
        StateM σ Unit) last).2) := by
  obtain ⟨known, above⟩ := listed_of_split split
  have interim := interim_of_staged faithful apart (split ▸ List.sublist_append_left early _) staged
  obtain ⟨prepared, files, removable⟩ := createWithParents_ends faithful created
  have places := interim.extended.grows.place_eq
  rw [places] at prepared files
  obtain ⟨partly, elsewhere⟩ : Extends [] (tree made) (tree last) ∧
      ∀ place ≠ (tree before).place artifact.temporary,
        (tree last).file? place = (tree made).file? place := by
    rcases faithful.partly _ _ _ _ _ stopped with same | ⟨bytes, written⟩
    · rw [same]
      exact ⟨Extends.refl _ _, fun _ _ => rfl⟩
    · obtain ⟨extended, changed⟩ := writeFile_eq_ok written
      rw [prepared.grows.place_eq, places] at changed
      exact ⟨extended, fun place apart => by rw [changed, Function.update_of_ne apart]⟩
  have making := (later_createWithParents artifact.temporary).of_eq created
  have filling : Later made last :=
    Always.of_eq (fun state => (Operation.writeFile _ _ state).later) stopped
  have extended := (prepared.mono (List.map_subset _ above)).trans
    (partly.mono (List.nil_subset _))
  have now : Interim artifacts (early ++ [artifact]) [] (tree before) (tree last) := by
    refine ⟨interim.extended.trans extended, known, List.nil_subset _, ?_,
      fun _ member => (nomatch member), ?_⟩
    · rw [List.forall_mem_append, List.forall_mem_singleton]
      refine ⟨interim.free, fun directory => ?_⟩
      have held : (tree made).file? ((tree before).place artifact.temporary) = some .empty := by
        rw [files, Function.update_self]
      exact ne_directory_of_file? held
        (prepared.grows.directories _ (interim.extended.grows.directories _ directory))
    · intro place outside _
      rw [List.map_append, List.mem_append, not_or, List.map_singleton, List.mem_singleton]
        at outside
      rw [elsewhere place outside.2, files, Function.update_of_ne outside.2]
      exact interim.kept place outside.1 List.not_mem_nil
  obtain ⟨_, _, earlier⟩ := writeTemporaries_run faithful staged
  apply now.aftermath apart known (removeAll_clears faithful _ last)
  rw [List.forall_mem_append, List.forall_mem_singleton]
  constructor
  · intro other member
    exact .inl ⟨List.mem_append_left _ member,
      (earlier other member).of_later faithful (trans_of Later making filling)⟩
  · exact .inl ⟨by simp, removable.of_later faithful filling⟩

theorem aftermath_of_moving {ready : σ} {fault : FileFault}
    (apart : Apart (tree before) (artifactPaths artifacts))
    (split : artifacts = early ++ artifact :: late)
    (staged : (writeTemporaries [] artifacts : Attempt (StateM σ) Unit) before = (.ok (), middle))
    (installed : (moveIntoPlace early : Attempt (StateM σ) Unit) middle = (.ok (), ready))
    (stopped : (Host.rename artifact.temporary artifact.path :
      StateM σ (Except FileFault Unit)) ready = (.error fault, last)) :
    Aftermath artifacts artifacts early (tree before)
      (tree ((removeAll ((artifact :: late).map Artifact.temporary) : StateM σ Unit) last).2) := by
  have interim := interim_of_staged faithful apart (List.Sublist.refl artifacts) staged
  obtain ⟨_, files, removable⟩ := writeTemporaries_run faithful staged
  obtain ⟨extended, _, moved⟩ := moveIntoPlace_run faithful installed
  have same := (faithful.rename _ _).failed _ _ _ stopped
  rw [interim.extended.grows.place_eq] at moved
  have part : early.Sublist artifacts := split ▸ List.sublist_append_left early _
  have separate := apart.separate.of_sublist part
  have now : Interim artifacts artifacts early (tree before) (tree last) := by
    rw [same]
    refine ⟨interim.extended.trans (extended.mono (List.nil_subset _)), interim.listed, part.subset,
      interim.free, ?_, ?_⟩
    · rw [moved]
      apply settle_file separate.files separate.temporaries separate.ordered
      intro other member
      rw [files]
      exact stage_temporary apart.separate.temporaries other (part.subset member)
    · intro place temporaries paths
      rw [moved, settle_of_not_mem paths
        (fun inside => temporaries (List.map_subset _ part.subset inside))]
      exact interim.kept place temporaries List.not_mem_nil
  have others : artifact :: late ⊆ artifacts := split ▸ List.subset_append_right early _
  apply now.aftermath apart others (removeAll_clears faithful _ last)
  have moving := (later_moveIntoPlace early).of_eq installed
  have ending : Later ready last :=
    Always.of_eq (fun state => (Operation.rename _ _ state).later) stopped
  intro other member
  rcases List.mem_append.mp (split ▸ member) with settled | waiting
  · right
    rw [same, moved]
    exact settle_temporary_eq_none settled
      (apart.separate.temporary_not_mem_files member part.subset)
  · exact .inl ⟨waiting,
      (removable other member).of_later faithful (trans_of Later moving ending)⟩

theorem Aborted.aftermath {after : σ} {created moved : List Artifact}
    (aborted : Aborted artifacts before error after created moved)
    (apart : Apart (tree before) (artifactPaths artifacts)) :
    Aftermath artifacts created moved (tree before) (tree after) := by
  cases aborted with
  | making split staged stopped => exact aftermath_of_making faithful apart split staged stopped
  | filling split staged created stopped _ =>
    exact aftermath_of_filling faithful apart split staged created stopped
  | moving split staged installed stopped _ =>
    exact aftermath_of_moving faithful apart split staged installed stopped

end Aborting

/-- When artifacts cannot be written, those that have not taken their places are as they were, and
nothing else is left behind but directories. A generation that fails earlier changes nothing. -/
theorem aftermath_of_failure {σ : Type} [Host (StateM σ)] {tree : σ → Disk}
    (faithful : Faithful tree) :
    (∀ (artifacts : List Artifact) (before after : σ) (error : GeneratorError),
      Apart (tree before) (artifactPaths artifacts) →
        (writeArtifacts artifacts : Attempt (StateM σ) Unit) before = (.error error, after) →
          ∃ created moved, Aborted artifacts before error after created moved ∧
            Aftermath artifacts created moved (tree before) (tree after)) ∧
      ∀ (generator : Generator) (before after : σ) (error : GeneratorError),
        (generator.generate : Attempt (StateM σ) (List Path)) before = (.error error, after) →
          error.cause.precedesWriting = true → tree after = tree before := by
  constructor
  · intro artifacts before after error apart failed
    obtain ⟨created, moved, aborted⟩ := aborted_of_writeArtifacts failed
    exact ⟨created, moved, aborted, aborted.aftermath faithful apart⟩
  · intro generator before after error failed early
    rw [Generator.generate, run_bind_error_iff] at failed
    rcases failed with unrendered | ⟨artifacts, middle, rendered, others⟩
    · exact (unchanged_buildAndRender faithful generator).of_eq unrendered
    · rcases (run_bind_error_iff _ _ _ _ _).mp others with unwritten | ⟨_, _, _, returned⟩
      · obtain ⟨_, _, aborted⟩ := aborted_of_writeArtifacts unwritten
        rw [aborted.not_precedesWriting] at early
        cases early
      · cases returned

/-- A machine with a device that takes texts up to a length. -/
structure Confined where
  machine : Machine
  room : Nat

namespace Confined

def within {α : Type} (action : StateM Machine α) : StateM Confined α :=
  fun confined => ((action confined.machine).1,
    { confined with machine := (action confined.machine).2 })

/-- As much of a text as there is room for. -/
def part (confined : Confined) (text : String) : ByteArray :=
  text.toUTF8.extract 0 confined.room

instance : Host (StateM Confined) where
  readFile path := within (Host.readFile path)
  isDirectory path := within (Host.isDirectory path)
  makeDirectory path := within (Host.makeDirectory path)
  createFile path := within (Host.createFile path)
  writeFile path text := fun confined =>
    if text.utf8ByteSize ≤ confined.room then within (Host.writeFile path text) confined
    else
      match within (Machine.change (·.writeFile path (confined.part text))) confined with
      | (.ok (), full) => (.error (.other "No space left on device (os error 28)"), full)
      | unwritten => unwritten
  rename source path := within (Host.rename source path)
  removeFile path := within (Host.removeFile path)
  output text := within (Host.output text)
  announce text := within (Host.announce text)
  complain text := within (Host.complain text)
  notify notice := within (Host.notify notice)
  showsColors := within Host.showsColors

def tree (confined : Confined) : Disk :=
  confined.machine.disk

theorem performs_within (use : Disk → Except FileFault Disk) :
    Performs tree use (within (Machine.change use)) := by
  have performs := performs_change use
  constructor
  · intro before after ended
    cases changed : Machine.change use before.machine with
    | mk result machine =>
      rw [within, changed] at ended
      cases ended
      exact performs.done _ _ changed
  · intro before fault after ended
    cases changed : Machine.change use before.machine with
    | mk result machine =>
      rw [within, changed] at ended
      cases ended
      exact performs.failed _ _ _ changed

theorem faithful : Faithful tree where
  readFile _ _ := rfl
  isDirectory _ _ := rfl
  announce _ _ := rfl
  notify _ _ := rfl
  makeDirectory _ := performs_within _
  createFile _ := performs_within _
  rename _ _ := performs_within _
  removeFile _ := performs_within _
  written path text before after ended := by
    change ite _ _ _ = _ at ended
    split at ended
    · exact (performs_within (·.writeFile path text.toUTF8)).done _ _ ended
    · split at ended
      · cases ended
      · next unwritten => exact absurd ended (unwritten _)
  partly path text before fault after ended := by
    change ite _ _ _ = _ at ended
    split at ended
    · exact .inl ((performs_within (·.writeFile path text.toUTF8)).failed _ _ _ ended)
    · split at ended
      · next full filled =>
          cases ended
          exact .inr ⟨_, (performs_within _).done _ _ filled⟩
      · exact .inl ((performs_within _).failed _ _ _ ended)
  removable path _ _ now disk _ _ removed := by
    change (Machine.change (·.removeFile path) now.machine).1 = _
    rw [change_of_ok removed]

end Confined

/-- The text of the first header fits, that of the second does not. -/
def sampleConfined : Confined :=
  ⟨sampleMachine, 5⟩

def sourceless : Generator :=
  { source := "instr.json" }

theorem aftermath_of_failure_sample :
    (∃ error after created moved,
      (writeArtifacts sampleArtifacts : Attempt (StateM Confined) Unit) sampleConfined =
          (.error error, after) ∧
        Aborted sampleArtifacts sampleConfined error after created moved ∧
        Aftermath sampleArtifacts created moved sampleConfined.tree after.tree) ∧
      ∃ error after,
        (sourceless.generate : Attempt (StateM Confined) (List Path)) sampleConfined =
            (.error error, after) ∧
          after.tree = sampleConfined.tree := by
  have aftermath := aftermath_of_failure Confined.faithful
  constructor
  · have failed : ((writeArtifacts sampleArtifacts : Attempt (StateM Confined) Unit)
        sampleConfined).1.isOk = false := by decide +kernel
    obtain ⟨error, ended⟩ := exists_error_of_isOk failed
    have apart : Apart sampleConfined.tree (artifactPaths sampleArtifacts) :=
      ⟨by decide +kernel, by decide +kernel⟩
    obtain ⟨created, moved, left⟩ := aftermath.1 sampleArtifacts sampleConfined _ error apart
      (Prod.ext ended rfl)
    exact ⟨error, _, created, moved, Prod.ext ended rfl, left⟩
  · have failed : (sourceless.generate : Attempt (StateM Confined) (List Path)) sampleConfined =
        (.error ⟨"instr.json", .sourceFile .notFound⟩, sampleConfined) := rfl
    exact ⟨_, _, failed, aftermath.2 sourceless sampleConfined _ _ failed rfl⟩

end DecoderTables
