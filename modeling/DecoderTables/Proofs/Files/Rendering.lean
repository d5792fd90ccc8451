import DecoderTables.Proofs.Files.Directories
import DecoderTables.Proofs.Files.Observation

/-!
What a generator renders. It depends on the bytes of the source only.
-/

namespace DecoderTables
open Disk

section Ends

variable {α : Type}

/-- An action that cannot fail goes first. -/
theorem ends_lift_bind_iff {β : Type} (action : StateM Machine α)
    (next : α → Attempt (StateM Machine) β) (before : Machine) (value : β) (after : Machine) :
    Ends (liftM action >>= next) before value after ↔
      Ends (next (action before).1) (action before).2 value after := by
  rw [ends_bind_iff]
  apply Iff.intro
  · intro given
    obtain ⟨_, _, ⟨result, rfl⟩, rest⟩ := given
    cases result
    exact rest
  · intro rest
    exact ⟨_, _, ⟨rfl, rfl⟩, rest⟩

theorem ends_blaming_iff {ε : Type} (path : Path) (cause : ε → Cause)
    (action : StateM Machine (Except ε α)) (before : Machine) (value : α) (after : Machine) :
    Ends (blaming path cause action) before value after ↔
      action before = (.ok value, after) := by
  rw [ends_iff, run_blaming_ok_iff]

theorem readText_eq_ok_iff (path : Path) (before : Machine) (text : String) (after : Machine) :
    (readText path : StateM Machine (Except FileFault String)) before = (.ok text, after) ↔
      (∃ bytes, before.disk.readFile path = .ok bytes ∧ String.fromUTF8? bytes = some text) ∧
        after = before := by
  have ran : (Host.readFile path : StateM Machine (Except FileFault ByteArray)) before =
      (before.disk.readFile path, before) := rfl
  rw [readText, run_bind_of_eq ran]
  cases before.disk.readFile path with
  | error fault =>
    apply Iff.intro
    · intro done
      cases done
    · intro given
      obtain ⟨⟨_, found, _⟩, _⟩ := given
      cases found
  | ok bytes =>
    simp only [Except.ok.injEq, exists_eq_left']
    cases String.fromUTF8? bytes with
    | none =>
      apply Iff.intro
      · intro done
        cases done
      · intro given
        cases given.1
    | some found =>
      apply Iff.intro
      · intro done
        cases done
        exact ⟨rfl, rfl⟩
      · intro given
        obtain ⟨same, rfl⟩ := given
        cases same
        rfl

end Ends

namespace Header

theorem textOf_ne_empty {lines : List String} (some_line : lines ≠ []) : textOf lines ≠ "" := by
  obtain ⟨first, more, rfl⟩ := List.exists_cons_of_ne_nil some_line
  intro same
  have size := congrArg String.length same
  simp [textOf, String.length_append] at size

theorem instructions_ne_empty (tables : Tables) (options : HeaderOptions) :
    instructions tables options ≠ "" :=
  textOf_ne_empty (List.cons_ne_nil _ _)

theorem decoders?_ne_empty {tables : Tables} {options : HeaderOptions} {text : String}
    (rendered : decoders? tables options = some text) : text ≠ "" := by
  unfold decoders? at rendered
  split at rendered
  · cases rendered
    exact textOf_ne_empty (List.cons_ne_nil _ _)
  · cases rendered

end Header

namespace Generator

variable {generator : Generator}

/-- The document that the bytes of a source hold. -/
def Holds (bytes : ByteArray) (document : Document) : Prop :=
  ∃ text, String.fromUTF8? bytes = some text ∧ Document.read text = .ok document

/-- The artifacts that a generator makes of the bytes of its source. -/
def Renders (generator : Generator) (bytes : ByteArray) (artifacts : List Artifact) : Prop :=
  ∃ document tables, Holds bytes document ∧ Tables.build document = .ok tables ∧
    generator.render tables = .ok artifacts

section Reading

variable {σ τ : Type} [Host (StateM σ)] {files : σ → τ}
variable {read : τ → Path → Except FileFault ByteArray} (readable : Readable files read)
include readable

/-- Reading the source, after the build script has been told of it. -/
theorem gives_load (generator : Generator) :
    Gives files (generator.load : Attempt (StateM σ) Document) fun state document =>
      ∃ bytes, read state generator.source = .ok bytes ∧ Holds bytes document := by
  have reading : Gives files (do
      let text ← blaming generator.source .sourceFile (readText generator.source)
      blaming generator.source .unreadable (pure (Document.read text)) :
        Attempt (StateM σ) Document) fun state document =>
      ∃ bytes, read state generator.source = .ok bytes ∧ Holds bytes document := by
    refine (gives_bind (gives_blaming (gives_readText readable _) _ _) fun text =>
      gives_blaming (gives_pure _) _ _).congr ?_
    intro state document
    simp only [Holds, fromUTF8?_eq_some_iff]
    apply Iff.intro
    · intro given
      obtain ⟨text, held, parsed⟩ := given
      exact ⟨_, held, text, rfl, parsed⟩
    · intro given
      obtain ⟨_, held, text, rfl, parsed⟩ := given
      exact ⟨text, held, parsed⟩
  unfold Generator.load
  split
  · exact gives_told (readable.announce _) reading
  · exact reading

theorem gives_build (generator : Generator) :
    Gives files (generator.build : Attempt (StateM σ) Tables) fun state tables =>
      ∃ bytes document, read state generator.source = .ok bytes ∧ Holds bytes document ∧
        Tables.build document = .ok tables := by
  refine (gives_bind (gives_load readable generator) fun document =>
    gives_told (always_notifyAll readable.notify _) (gives_blaming (gives_pure _) _ _)).congr ?_
  intro state tables
  apply Iff.intro
  · intro given
    obtain ⟨document, ⟨bytes, held, holds⟩, built⟩ := given
    exact ⟨bytes, document, held, holds, built⟩
  · intro given
    obtain ⟨bytes, document, held, holds, built⟩ := given
    exact ⟨document, ⟨bytes, held, holds⟩, built⟩

theorem gives_buildAndRender (generator : Generator) :
    Gives files (generator.buildAndRender : Attempt (StateM σ) (List Artifact))
      fun state artifacts =>
        ∃ bytes, read state generator.source = .ok bytes ∧ generator.Renders bytes artifacts := by
  refine (gives_bind (gives_build readable generator) fun tables =>
    gives_pure (generator.render tables)).congr ?_
  intro state artifacts
  apply Iff.intro
  · intro given
    obtain ⟨tables, ⟨bytes, document, held, holds, built⟩, rendered⟩ := given
    exact ⟨bytes, held, document, tables, holds, built, rendered⟩
  · intro given
    obtain ⟨bytes, held, document, tables, holds, built, rendered⟩ := given
    exact ⟨tables, ⟨bytes, document, held, holds, built⟩, rendered⟩

end Reading

variable {before after : Machine}

theorem buildAndRender_ends_iff (generator : Generator) (before : Machine)
    (artifacts : List Artifact) :
    (∃ after, Ends generator.buildAndRender before artifacts after) ↔
      ∃ bytes, before.disk.readFile generator.source = .ok bytes ∧
        generator.Renders bytes artifacts := by
  rw [← (gives_buildAndRender Machine.readable generator).result before artifacts]
  apply Iff.intro
  · intro given
    obtain ⟨after, done⟩ := given
    exact done.result
  · intro done
    exact ⟨_, done, rfl⟩

theorem disk_of_buildAndRender {artifacts : List Artifact}
    (done : Ends generator.buildAndRender before artifacts after) : after.disk = before.disk :=
  (gives_buildAndRender Machine.readable generator).keeps.of_eq ((ends_iff _ _ _ _).mp done)

/-- The decoder header comes first. -/
theorem Renders.paths {bytes : ByteArray} {artifacts : List Artifact}
    (renders : generator.Renders bytes artifacts) :
    artifacts.map (·.path) = [generator.decodersPath, generator.instrPath] := by
  obtain ⟨document, tables, _, _, rendered⟩ := renders
  unfold render at rendered
  split at rendered
  · cases rendered
  · cases rendered
    rfl

/-- A file is never as empty as a missing one. -/
theorem Renders.nonempty {bytes : ByteArray} {artifacts : List Artifact}
    (renders : generator.Renders bytes artifacts) :
    ∀ artifact ∈ artifacts, artifact.text ≠ "" := by
  obtain ⟨document, tables, _, _, rendered⟩ := renders
  unfold render at rendered
  split at rendered
  · cases rendered
  · next text decoders =>
    cases rendered
    intro artifact member
    rcases List.mem_cons.mp member with rfl | last
    · exact Header.decoders?_ne_empty decoders
    · rw [List.mem_singleton.mp last]
      dsimp only
      exact Header.instructions_ne_empty _ _

end Generator

end DecoderTables
