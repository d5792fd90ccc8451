import DecoderTables.Proofs.Files.Changes
import DecoderTables.Proofs.Files.Steps

/-!
Hosts whose state holds a tree of files. An operation may fail for reasons that the tree does not
show, such as a full device or a missing right; then it leaves the tree as it is, except that a file
may hold a part of what was to be written.
-/

namespace DecoderTables
open Disk

section Hosts

variable {σ : Type} (tree : σ → Disk)

def Unchanged (before after : σ) : Prop :=
  tree after = tree before

instance : IsPreorder σ (Unchanged tree) where
  refl _ := rfl
  trans _ _ _ first second := Eq.trans second first

/-- An action that succeeds does to the tree what the operation does, and one that fails does
nothing. -/
structure Performs (use : Disk → Except FileFault Disk)
    (action : StateM σ (Except FileFault Unit)) : Prop where
  done : ∀ before after, action before = (.ok (), after) → use (tree before) = .ok (tree after)
  failed : ∀ before fault after, action before = (.error fault, after) → tree after = tree before

variable [Host (StateM σ)]

/-- The host keeps its files in the tree. -/
structure Faithful : Prop where
  readFile : ∀ path, Always (Unchanged tree)
    (Host.readFile path : StateM σ (Except FileFault ByteArray))
  isDirectory : ∀ path, Always (Unchanged tree) (Host.isDirectory path : StateM σ Bool)
  announce : ∀ text, Always (Unchanged tree) (Host.announce text : StateM σ Unit)
  notify : ∀ notice, Always (Unchanged tree) (Host.notify notice : StateM σ Unit)
  makeDirectory : ∀ path, Performs tree (·.makeDirectory path) (Host.makeDirectory path)
  createFile : ∀ path, Performs tree (·.writeFile path .empty) (Host.createFile path)
  rename : ∀ source path, Performs tree (·.rename source path) (Host.rename source path)
  removeFile : ∀ path, Performs tree (·.removeFile path) (Host.removeFile path)
  written : ∀ path text before after,
    (Host.writeFile path text : StateM σ (Except FileFault Unit)) before = (.ok (), after) →
      (tree before).writeFile path text.toUTF8 = .ok (tree after)
  partly : ∀ path text before fault after,
    (Host.writeFile path text : StateM σ (Except FileFault Unit)) before = (.error fault, after) →
      tree after = tree before ∨
        ∃ bytes, (tree before).writeFile path bytes = .ok (tree after)
  /-- A file that was just created can be removed. -/
  removable : ∀ path before created now disk,
    (Host.createFile path : StateM σ (Except FileFault Unit)) before = (.ok (), created) →
      Later created now → (tree now).removeFile path = .ok disk →
        ((Host.removeFile path : StateM σ (Except FileFault Unit)) now).1 = .ok ()

end Hosts

theorem performs_change (use : Disk → Except FileFault Disk) :
    Performs Machine.disk use (Machine.change use) := by
  constructor
  · intro before after ended
    dsimp only [Machine.change] at ended
    cases used : use before.disk with
    | ok disk =>
      rw [used] at ended
      cases ended
      rfl
    | error fault =>
      rw [used] at ended
      cases ended
  · intro before fault after ended
    dsimp only [Machine.change] at ended
    cases used : use before.disk with
    | ok disk =>
      rw [used] at ended
      cases ended
    | error fault =>
      rw [used] at ended
      cases ended
      rfl

theorem change_of_ok {use : Disk → Except FileFault Disk} {before : Machine} {disk : Disk}
    (used : use before.disk = .ok disk) :
    Machine.change use before = (.ok (), { before with disk }) := by
  dsimp only [Machine.change]
  rw [used]

theorem change_of_error {use : Disk → Except FileFault Disk} {before : Machine}
    {fault : FileFault} (refused : use before.disk = .error fault) :
    Machine.change use before = (.error fault, before) := by
  dsimp only [Machine.change]
  rw [refused]

theorem Machine.faithful : Faithful Machine.disk where
  readFile _ _ := rfl
  isDirectory _ _ := rfl
  announce _ _ := rfl
  notify _ _ := rfl
  makeDirectory _ := performs_change _
  createFile _ := performs_change _
  rename _ _ := performs_change _
  removeFile _ := performs_change _
  written path text := (performs_change (·.writeFile path text.toUTF8)).done
  partly path text before fault after ended :=
    .inl ((performs_change (·.writeFile path text.toUTF8)).failed before fault after ended)
  removable path _ _ now disk _ _ removed := by
    change (Machine.change (·.removeFile path) now).1 = _
    rw [change_of_ok removed]

/-! Directories stay, whatever a host does. -/

section Growth

variable {σ : Type} {tree : σ → Disk}

theorem Performs.grows {use : Disk → Except FileFault Disk}
    {action : StateM σ (Except FileFault Unit)} (performs : Performs tree use action)
    (used : ∀ disk changed, use disk = .ok changed → Grows disk changed) (before : σ) :
    Grows (tree before) (tree (action before).2) := by
  cases ended : action before with
  | mk result after =>
    cases result with
    | ok => exact used _ _ (performs.done _ _ ended)
    | error fault =>
      dsimp only
      rw [performs.failed _ _ _ ended]
      exact Grows.refl _

variable [Host (StateM σ)] (faithful : Faithful tree) {before after : σ}
include faithful

theorem Operation.grows (operation : Operation before after) :
    Grows (tree before) (tree after) := by
  have created : ∀ path bytes disk changed, Disk.writeFile disk path bytes = .ok changed →
      Grows disk changed := fun path bytes disk changed done => (writeFile_eq_ok done).1.grows
  cases operation with
  | isDirectory path =>
    rw [faithful.isDirectory path before]
    exact Grows.refl _
  | makeDirectory path =>
    exact (faithful.makeDirectory path).grows (fun _ _ done => (makeDirectory_eq_ok done).grows) _
  | createFile path => exact (faithful.createFile path).grows (created path _) _
  | writeFile path text =>
    cases ended : (Host.writeFile path text : StateM σ (Except FileFault Unit)) before with
    | mk result after =>
      cases result with
      | ok => exact created _ _ _ _ (faithful.written _ _ _ _ ended)
      | error fault =>
        rcases faithful.partly _ _ _ _ _ ended with same | ⟨bytes, written⟩
        · dsimp only
          rw [same]
          exact Grows.refl _
        · exact created _ _ _ _ written
  | rename source path =>
    exact (faithful.rename source path).grows (fun _ _ done => (rename_eq_ok done).1.grows) _
  | removeFile path =>
    exact (faithful.removeFile path).grows (fun _ _ done => (removeFile_eq_ok done).1.grows) _
  | notify notice =>
    rw [faithful.notify notice before]
    exact Grows.refl _

theorem Later.grows (later : Later before after) : Grows (tree before) (tree after) := by
  induction later with
  | refl => exact Grows.refl _
  | tail _ operation ih => exact ih.trans (operation.grows faithful)

end Growth

/-! Directories that are made for a path. -/

/-- The directories above a path, the nearest first. -/
def Path.above (path : Path) : List Path :=
  match path.parent? with
  | some parent => parent.upward
  | none => []

section Directories

variable {σ : Type} {tree : σ → Disk} {paths : List Path}

/-- Directories are made at the paths at most, and nothing else changes. -/
def Prepared (tree : σ → Disk) (paths : List Path) (before after : σ) : Prop :=
  Prepares (paths.map (tree before).place) (tree before) (tree after)

instance : IsPreorder σ (Prepared tree paths) where
  refl _ := Prepares.refl _ _
  trans first middle last early late := by
    have later : Prepares (paths.map (tree middle).place) (tree middle) (tree last) := late
    rw [early.grows.place_eq] at later
    exact Prepares.trans early later

variable [Host (StateM σ)] (faithful : Faithful tree)
include faithful

theorem prepared_makeDirectory {path : Path} (member : path ∈ paths) :
    Always (Prepared tree paths)
      (Host.makeDirectory path : StateM σ (Except FileFault Unit)) := by
  intro before
  cases made : (Host.makeDirectory path : StateM σ (Except FileFault Unit)) before with
  | mk result after =>
    cases result with
    | ok =>
      apply (makeDirectory_eq_ok ((faithful.makeDirectory path).done _ _ made)).mono
      exact List.cons_subset.mpr ⟨List.mem_map_of_mem member, List.nil_subset _⟩
    | error fault =>
      dsimp only [Prepared]
      rw [(faithful.makeDirectory path).failed _ _ _ made]
      exact Prepares.refl _ _

theorem prepared_makeDirectories (paths : List Path) :
    Always (Prepared tree paths)
      (makeDirectories paths : StateM σ (Except FileFault Unit)) := by
  apply always_makeDirectories fun path member => prepared_makeDirectory faithful member
  intro path before
  dsimp only [Prepared]
  rw [faithful.isDirectory path before]
  exact Prepares.refl _ _

theorem createWithParents_done {path : Path} {before after : σ}
    (done : (createWithParents path : Attempt (StateM σ) Unit) before = (.ok (), after)) :
    ∃ middle, Prepares (path.above.map (tree before).place) (tree before) (tree middle) ∧
      (Host.createFile path : StateM σ (Except FileFault Unit)) middle = (.ok (), after) := by
  unfold createWithParents at done
  unfold Path.above
  cases above : path.parent? with
  | none =>
    rw [above] at done
    exact ⟨before, Prepares.refl _ _, (run_blaming_ok_iff _ _ _ _ _ _).mp done⟩
  | some parent =>
    rw [above] at done
    obtain ⟨⟨⟩, middle, made, created⟩ := (run_bind_ok_iff _ _ _ _ _).mp done
    rw [run_blaming_ok_iff] at made created
    exact ⟨middle, (prepared_makeDirectories faithful parent.upward).of_eq made, created⟩

theorem createWithParents_failed {path : Path} {before after : σ} {error : GeneratorError}
    (failed : (createWithParents path : Attempt (StateM σ) Unit) before =
      (.error error, after)) :
    Prepares (path.above.map (tree before).place) (tree before) (tree after) := by
  unfold createWithParents at failed
  unfold Path.above
  cases above : path.parent? with
  | none =>
    rw [above] at failed
    obtain ⟨fault, stopped, _⟩ := (run_blaming_error_iff _ _ _ _ _ _).mp failed
    rw [(faithful.createFile path).failed _ _ _ stopped]
    exact Prepares.refl _ _
  | some parent =>
    rw [above] at failed
    have prepared := prepared_makeDirectories faithful parent.upward
    rcases (run_bind_error_iff _ _ _ _ _).mp failed with stopped | ⟨⟨⟩, middle, made, stopped⟩
    · obtain ⟨fault, stopped, _⟩ := (run_blaming_error_iff _ _ _ _ _ _).mp stopped
      exact prepared.of_eq stopped
    · obtain ⟨fault, stopped, _⟩ := (run_blaming_error_iff _ _ _ _ _ _).mp stopped
      rw [(faithful.createFile path).failed _ _ _ stopped]
      exact prepared.of_eq ((run_blaming_ok_iff _ _ _ _ _ _).mp made)

end Directories

/-! All headers are rendered before anything is written. -/

section Preparation

variable {σ : Type} {tree : σ → Disk} [Host (StateM σ)] (faithful : Faithful tree)
include faithful

theorem unchanged_load (generator : Generator) :
    Always (Unchanged tree) (generator.load : Attempt (StateM σ) Document) := by
  have reading : Always (Unchanged tree) (do
      let text ← blaming generator.source .sourceFile (readText generator.source)
      blaming generator.source .unreadable (pure (Document.read text)) :
        Attempt (StateM σ) Document) := by
    apply always_attempt_bind
    · exact always_blaming (always_readText faithful.readFile _) _ _
    · intro text
      exact always_blaming (always_pure _) _ _
  unfold Generator.load
  split
  · exact always_attempt_bind (faithful.announce _) fun _ => reading
  · exact reading

theorem unchanged_buildAndRender (generator : Generator) :
    Always (Unchanged tree) (generator.buildAndRender : Attempt (StateM σ) (List Artifact)) := by
  apply always_attempt_bind
  · apply always_attempt_bind (unchanged_load faithful generator)
    intro document
    exact always_attempt_bind (always_notifyAll faithful.notify _)
      fun _ => always_blaming (always_pure _) _ _
  · intro tables before
    cases generator.render tables with
    | ok artifacts => rfl
    | error fault => rfl

end Preparation

end DecoderTables
