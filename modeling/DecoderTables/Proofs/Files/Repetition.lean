import DecoderTables.Proofs.Files.Rendering
import DecoderTables.Proofs.Files.Separation

/-!
Generating twice. After a successful generation the directories are there, the files hold their
texts and the temporary files are gone, so that writing the same artifacts again succeeds and
changes nothing.
-/

namespace DecoderTables
open Disk

/-- Everything is there that it takes to write an artifact. -/
structure Ready (disk : Disk) (artifact : Artifact) : Prop where
  sheltered : disk.Sheltered artifact.temporary
  temporary : disk.Reaches artifact.temporary (disk.place artifact.temporary)
  temporaryFree : disk.get? (disk.place artifact.temporary) ≠ some .directory
  file : disk.Reaches artifact.path (disk.place artifact.path)
  fileFree : disk.get? (disk.place artifact.path) ≠ some .directory

theorem Ready.of_extends {before after : Disk} {artifact : Artifact}
    (ready : Ready before artifact) (extended : Extends [] before after) :
    Ready after artifact := by
  have places := extended.grows.place_eq
  have only : ∀ place, after.get? place = some .directory →
      before.get? place = some .directory :=
    fun place known => (extended.only place known).resolve_right List.not_mem_nil
  refine ⟨ready.sheltered.of_grows extended.grows, ?_, ?_, ?_, ?_⟩
  · rw [places]
    exact ready.temporary.of_grows extended.grows
  · rw [places]
    exact fun known => ready.temporaryFree (only _ known)
  · rw [places]
    exact ready.file.of_grows extended.grows
  · rw [places]
    exact fun known => ready.fileFree (only _ known)

section Machines

variable {before after now : Machine} {artifact : Artifact} {artifacts : List Artifact}

/-! What the first writing leaves ready. -/

theorem createWithParents_sheltered {path : Path}
    (done : Ends (createWithParents path) before () after) : after.disk.Sheltered path := by
  intro parent above
  unfold createWithParents at done
  rw [Option.mem_def.mp above, ends_bind_iff] at done
  obtain ⟨⟨⟩, middle, made, created⟩ := done
  cases empty : parent.isEmpty with
  | true => exact .inl rfl
  | false =>
    right
    have there := isDirectory_of_makeDirectories empty ((ends_blaming_iff _ _ _ _ _ _).mp made)
    have written := (Machine.faithful.createFile path).done _ _
      ((ends_blaming_iff _ _ _ _ _ _).mp created)
    exact isDirectory_of_grows (writeFile_eq_ok written).1.grows there

theorem writeTemporary_sheltered (done : Ends (writeTemporary artifact) before () after) :
    after.disk.Sheltered artifact.temporary := by
  rw [writeTemporary, ends_bind_iff] at done
  obtain ⟨⟨⟩, middle, created, filled⟩ := done
  have written := Machine.faithful.written _ _ _ _ ((ends_blaming_iff _ _ _ _ _ _).mp filled)
  exact (createWithParents_sheltered created).of_grows (writeFile_eq_ok written).1.grows

theorem writeTemporaries_sheltered {written : List Path}
    (done : Ends (writeTemporaries written artifacts) before () after) :
    ∀ artifact ∈ artifacts, after.disk.Sheltered artifact.temporary := by
  induction artifacts generalizing written before with
  | nil => exact fun _ member => nomatch member
  | cons artifact artifacts ih =>
    rw [writeTemporaries, ends_bind_iff] at done
    obtain ⟨⟨⟩, middle, one, others⟩ := done
    rw [ends_iff, run_cleaningUp_ok_iff, ← ends_iff] at one
    have grows := (writeTemporaries_ends others).1
    exact List.forall_mem_cons.mpr ⟨(writeTemporary_sheltered one).of_grows grows, ih others⟩

theorem ready_of_writeArtifacts (separate : Separate before.disk.place artifacts)
    (done : Ends (writeArtifacts artifacts) before () after) :
    Grows before.disk after.disk ∧ (∀ artifact ∈ artifacts, Ready after.disk artifact) ∧
      after.disk.file? = artifacts.foldl (settle before.disk.place)
        (artifacts.foldl (stage before.disk.place) before.disk.file?) := by
  rw [writeArtifacts, ends_bind_iff] at done
  obtain ⟨⟨⟩, middle, staging, settling⟩ := done
  obtain ⟨made, staged, removable⟩ :=
    writeTemporaries_run Machine.faithful ((ends_iff _ _ _ _).mp staging)
  obtain ⟨extended, reached, settled⟩ :=
    moveIntoPlace_run Machine.faithful ((ends_iff _ _ _ _).mp settling)
  have places := made.grows.place_eq
  have grows := made.grows.trans extended.grows
  rw [places, staged] at settled
  refine ⟨grows, ?_, settled⟩
  intro artifact member
  have sheltered := writeTemporaries_sheltered staging artifact member
  rw [places] at reached
  refine ⟨sheltered.of_grows extended.grows, ?_, ?_, ?_, ?_⟩
  · rw [extended.grows.place_eq]
    exact (removable artifact member).reaches.of_grows extended.grows
  · rw [grows.place_eq]
    intro known
    have held : middle.disk.file? (before.disk.place artifact.temporary) =
        some artifact.text.toUTF8 := by
      rw [staged]
      exact stage_temporary separate.temporaries artifact member
    exact ne_directory_of_file? held
      ((extended.only _ known).resolve_right List.not_mem_nil)
  · rw [grows.place_eq]
    exact reached artifact member
  · rw [grows.place_eq]
    have held := separate.installed_path before.disk.file? member
    rw [← settled] at held
    exact ne_directory_of_file? held

/-! The second writing. -/

theorem ends_change (use : Disk → Except FileFault Disk) (path : Path)
    (cause : FileFault → Cause) {disk : Disk} (used : use now.disk = .ok disk) :
    Ends (blaming path cause (Machine.change use)) now () { now with disk } :=
  (ends_blaming_iff _ _ _ _ _ _).mpr (change_of_ok used)

theorem createWithParents_of_ready (ready : Ready now.disk artifact) :
    ∃ after, Ends (createWithParents artifact.temporary) now () after ∧
      Extends [] now.disk after.disk := by
  obtain ⟨disk, written⟩ : ∃ disk, now.disk.writeFile artifact.temporary .empty = .ok disk :=
    ⟨_, (writeFile_eq_ok_iff _).mpr ⟨ready.temporary, ready.temporaryFree, rfl⟩⟩
  have created := ends_change (·.writeFile artifact.temporary .empty) artifact.temporary
    .outputFile written
  refine ⟨{ now with disk }, ?_, (writeFile_eq_ok written).1⟩
  unfold createWithParents
  cases above : artifact.temporary.parent? with
  | none => exact created
  | some parent =>
    have made : (makeDirectories parent.upward : StateM Machine (Except FileFault Unit)) now =
        (.ok (), now) := makeDirectories_again (ready.sheltered parent above)
    exact (ends_bind_iff _ _ _ _ _).mpr
      ⟨(), now, (ends_blaming_iff _ _ _ _ _ _).mpr made, created⟩

theorem writeTemporary_of_ready (ready : Ready now.disk artifact) :
    ∃ after, Ends (writeTemporary artifact) now () after ∧ Extends [] now.disk after.disk := by
  obtain ⟨middle, created, first⟩ := createWithParents_of_ready ready
  have still := ready.of_extends first
  obtain ⟨disk, written⟩ : ∃ disk,
      middle.disk.writeFile artifact.temporary artifact.text.toUTF8 = .ok disk :=
    ⟨_, (writeFile_eq_ok_iff _).mpr ⟨still.temporary, still.temporaryFree, rfl⟩⟩
  have filled := ends_change (·.writeFile artifact.temporary artifact.text.toUTF8) artifact.path
    .generate written
  refine ⟨{ middle with disk }, ?_, first.trans (writeFile_eq_ok written).1⟩
  rw [writeTemporary, ends_bind_iff]
  exact ⟨(), middle, created, filled⟩

theorem writeTemporaries_of_ready (written : List Path)
    (ready : ∀ artifact ∈ artifacts, Ready now.disk artifact) :
    ∃ after, Ends (writeTemporaries written artifacts) now () after ∧
      Extends [] now.disk after.disk := by
  induction artifacts generalizing written now with
  | nil => exact ⟨now, ⟨rfl, rfl⟩, Extends.refl _ _⟩
  | cons artifact artifacts ih =>
    obtain ⟨one, others⟩ := List.forall_mem_cons.mp ready
    obtain ⟨middle, staged, first⟩ := writeTemporary_of_ready one
    obtain ⟨after, rest, second⟩ := ih (written ++ [artifact.temporary])
      fun other member => (others other member).of_extends first
    refine ⟨after, ?_, first.trans second⟩
    rw [writeTemporaries, ends_bind_iff]
    refine ⟨(), middle, ?_, rest⟩
    rwa [ends_iff, run_cleaningUp_ok_iff, ← ends_iff]

theorem rename_of_ready (paths : List Path) (ready : Ready now.disk artifact)
    (staged : now.disk.file? (now.disk.place artifact.temporary) ≠ none) :
    ∃ after, Ends (cleaningUp paths
        (blaming artifact.path .generate (Host.rename artifact.temporary artifact.path)))
          now () after ∧
      Extends [] now.disk after.disk ∧
      after.disk.file? = settle now.disk.place now.disk.file? artifact := by
  obtain ⟨bytes, held⟩ := Option.ne_none_iff_exists'.mp staged
  obtain ⟨disk, renamed⟩ : ∃ disk,
      now.disk.rename artifact.temporary artifact.path = .ok disk :=
    ⟨_, rename_eq_ok_iff.mpr ⟨ready.temporary, ready.file, ready.fileFree, bytes, held, rfl⟩⟩
  have moved := ends_change (·.rename artifact.temporary artifact.path) artifact.path .generate
    renamed
  obtain ⟨extended, _, content, found, files⟩ := rename_eq_ok renamed
  refine ⟨{ now with disk }, ?_, extended, ?_⟩
  · rw [ends_iff, run_cleaningUp_ok_iff]
    exact (ends_iff _ _ _ _).mp moved
  · rw [files, settle, found]

theorem moveIntoPlace_of_ready (separate : Separate now.disk.place artifacts)
    (ready : ∀ artifact ∈ artifacts, Ready now.disk artifact)
    (staged : ∀ artifact ∈ artifacts,
      now.disk.file? (now.disk.place artifact.temporary) ≠ none) :
    ∃ after, Ends (moveIntoPlace artifacts) now () after := by
  induction artifacts generalizing now with
  | nil => exact ⟨now, ⟨rfl, rfl⟩⟩
  | cons artifact artifacts ih =>
    obtain ⟨one, others⟩ := List.forall_mem_cons.mp ready
    obtain ⟨there, waiting⟩ := List.forall_mem_cons.mp staged
    obtain ⟨moved, renamed, extended, files⟩ :=
      rename_of_ready ((artifact :: artifacts).map Artifact.temporary) one there
    have places := extended.grows.place_eq
    let told : Machine := { moved with notices := moved.notices ++ [.generated artifact.path] }
    obtain ⟨after, rest⟩ : ∃ after, Ends (moveIntoPlace artifacts) told () after := by
      apply ih
      · rw [places]
        exact separate.of_sublist (List.sublist_cons_self artifact artifacts)
      · exact fun other member => (others other member).of_extends extended
      · intro other member
        have listed := List.mem_cons_of_mem artifact member
        have temporary : now.disk.place other.temporary ≠ now.disk.place artifact.temporary := by
          intro same
          apply (List.nodup_cons.mp separate.temporaries).1
          exact List.mem_map.mpr ⟨other, member, same⟩
        rw [places, files, settle,
          Function.update_of_ne (separate.apart artifact List.mem_cons_self other listed).symm,
          Function.update_of_ne temporary]
        exact waiting other member
    refine ⟨after, ?_⟩
    rw [moveIntoPlace, ends_bind_iff]
    exact ⟨(), moved, renamed, (ends_lift_bind_iff _ _ _ _ _).mpr rest⟩

/-- Artifacts that were written can be written again, and everything stays as it is. -/
theorem writeArtifacts_again (separate : Separate before.disk.place artifacts)
    (done : Ends (writeArtifacts artifacts) before () after) (now : Machine)
    (same : now.disk = after.disk) :
    ∃ last, Ends (writeArtifacts artifacts) now () last ∧
      last.disk.working = now.disk.working ∧ last.disk.get? = now.disk.get? := by
  obtain ⟨grows, ready, files⟩ := ready_of_writeArtifacts separate done
  rw [← same] at grows ready files
  rw [← grows.place_eq] at separate files
  obtain ⟨middle, staging, first⟩ := writeTemporaries_of_ready [] ready
  obtain ⟨_, staged⟩ := writeTemporaries_ends staging
  have places := first.grows.place_eq
  obtain ⟨last, settling⟩ := moveIntoPlace_of_ready (places ▸ separate)
    (fun artifact member => (ready artifact member).of_extends first) (by
      intro artifact member
      rw [places, staged, stage_temporary separate.temporaries artifact member]
      exact Option.some_ne_none _)
  obtain ⟨second, _, settled⟩ :=
    moveIntoPlace_run Machine.faithful ((ends_iff _ _ _ _).mp settling)
  have extended := first.trans second
  refine ⟨last, ?_, extended.grows.working, ?_⟩
  · rw [writeArtifacts, ends_bind_iff]
    exact ⟨(), middle, staging, settling⟩
  · funext place
    apply extended.get?_eq List.not_mem_nil
    rw [settled, staged, places, separate.installed_eq_self]
    · intro artifact member
      rw [files, separate.installed_path _ member]
    · intro artifact member
      rw [files, separate.installed_temporary _ member]

end Machines

/-! A generation and what follows it. -/

section Generators

variable {generator : Generator} {before after : Machine} {artifacts : List Artifact}

theorem generate_ends_iff (generator : Generator) (before : Machine) (paths : List Path)
    (after : Machine) :
    Ends generator.generate before paths after ↔
      ∃ artifacts middle, Ends generator.buildAndRender before artifacts middle ∧
        Ends (writeArtifacts artifacts) middle () after ∧ artifacts.map (·.path) = paths := by
  rw [Generator.generate, ends_bind_iff]
  simp only [ends_bind_iff]
  apply Iff.intro
  · intro given
    obtain ⟨artifacts, middle, rendered, ⟨⟩, written, done, result, same⟩ := given
    cases result
    exact ⟨artifacts, middle, rendered, same ▸ done, rfl⟩
  · intro given
    obtain ⟨artifacts, middle, rendered, done, rfl⟩ := given
    exact ⟨artifacts, middle, rendered, (), after, done, rfl, rfl⟩

theorem currentText_of_held {path : Path} {text : String} {now : Machine}
    (held : now.disk.readFile path = .ok text.toUTF8) :
    (Generator.currentText path : StateM Machine (Except FileFault String)) now =
      (.ok text, now) := by
  have read := (readText_eq_ok_iff path now text now).mpr
    ⟨⟨_, held, dif_pos text.isValidUTF8⟩, rfl⟩
  rw [Generator.currentText, run_bind_of_eq read]
  rfl

theorem staleAmong_of_held {now : Machine} (held : Held now.disk artifacts) :
    Ends (Generator.staleAmong artifacts) now [] now := by
  induction artifacts with
  | nil => exact ⟨rfl, rfl⟩
  | cons artifact artifacts ih =>
    obtain ⟨one, others⟩ := List.forall_mem_cons.mp held
    have current := (ends_blaming_iff artifact.path .sourceFile _ _ _ _).mpr
      (currentText_of_held one)
    refine (ends_bind_iff _ _ _ _ _).mpr ⟨artifact.text, now, current, ?_⟩
    rw [if_pos rfl]
    exact ih others

/-- The source and the files that a generation makes. -/
def Generator.files (generator : Generator) : List Path :=
  [generator.source, generator.decodersPath, generator.instrPath,
    generator.decodersPath.temporary, generator.instrPath.temporary]

theorem Generator.files_eq (paths : artifacts.map (·.path) =
    [generator.decodersPath, generator.instrPath]) :
    generator.files = generator.source :: artifactPaths artifacts := by
  have temporaries : artifacts.map (·.temporary) =
      (artifacts.map (·.path)).map Path.temporary := by
    rw [List.map_map]
    rfl
  rw [artifactPaths, temporaries, paths]
  rfl

/-- After a successful generation the check finds nothing stale, and a second generation succeeds
with the same paths and leaves everything as it is. -/
theorem check_and_generate_again {paths : List Path}
    (distinct : (generator.files.map before.disk.place).Nodup)
    (done : Ends generator.generate before paths after) :
    (∃ later, Ends generator.check after [] later ∧ later.disk = after.disk) ∧
      ∃ last, Ends generator.generate after paths last ∧
        last.disk.working = after.disk.working ∧ last.disk.get? = after.disk.get? := by
  obtain ⟨artifacts, middle, rendering, writing, rfl⟩ := (generate_ends_iff _ _ _ _).mp done
  obtain ⟨bytes, source, renders⟩ :=
    (generator.buildAndRender_ends_iff _ _).mp ⟨middle, rendering⟩
  have same := generator.disk_of_buildAndRender rendering
  rw [Generator.files_eq renders.paths, List.map_cons, List.nodup_cons] at distinct
  obtain ⟨aside, distinct⟩ := distinct
  rw [← same] at source aside distinct
  have separate := (separate_iff _ _).mpr distinct
  obtain ⟨grows, ready, files⟩ := ready_of_writeArtifacts separate writing
  -- the source is read again
  have reaches := Reaches.of_readFile source
  have source : after.disk.readFile generator.source = .ok bytes := by
    rw [artifactPaths, List.map_append, List.mem_append, not_or, List.map_map, List.map_map]
      at aside
    rw [(reaches.of_grows grows).readFile_eq_ok_iff, files,
      Separate.installed_other _ aside.1 aside.2]
    exact (reaches.readFile_eq_ok_iff bytes).mp source
  obtain ⟨again, rendered⟩ := (generator.buildAndRender_ends_iff _ _).mpr ⟨bytes, source, renders⟩
  have unchanged := generator.disk_of_buildAndRender rendered
  constructor
  · have held : Held again.disk artifacts := by
      intro artifact member
      rw [unchanged, (ready artifact member).file.readFile_eq_ok_iff, grows.place_eq, files,
        separate.installed_path _ member]
    exact ⟨again, (ends_bind_iff _ _ _ _ _).mpr ⟨artifacts, again, rendered,
      staleAmong_of_held held⟩, unchanged⟩
  · obtain ⟨last, rewriting, working, nodes⟩ :=
      writeArtifacts_again separate writing again unchanged
    refine ⟨last, (generate_ends_iff _ _ _ _).mpr ⟨artifacts, again, rendered, rewriting, rfl⟩, ?_⟩
    rw [← unchanged]
    exact ⟨working, nodes⟩

end Generators

/-- The headers go into a directory that is not there yet. -/
def freshGenerator : Generator :=
  { source := "isa.json", directory := "out" }

def freshMachine : Machine where
  disk := { nodes := [(["isa.json"],
    .file "\x7b\"instructions\":\x7b\"nop\":\x7b\x7d\x7d\x7d".toUTF8)] }

theorem check_and_generate_again_fresh :
    ∃ paths after, Ends freshGenerator.generate freshMachine paths after ∧
      (∃ later, Ends freshGenerator.check after [] later ∧ later.disk = after.disk) ∧
      ∃ last, Ends freshGenerator.generate after paths last ∧
        last.disk.working = after.disk.working ∧ last.disk.get? = after.disk.get? := by
  have done : ((freshGenerator.generate : Attempt (StateM Machine) (List Path))
      freshMachine).1.isOk = true := by decide +kernel
  obtain ⟨paths, result⟩ := exists_ok_of_isOk done
  exact ⟨paths, _, ⟨result, rfl⟩, check_and_generate_again (by decide +kernel) ⟨result, rfl⟩⟩

end DecoderTables
