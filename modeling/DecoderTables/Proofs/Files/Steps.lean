import DecoderTables.Proofs.Files.Attempts
import Mathlib.Logic.Relation
import Mathlib.Order.Defs.Unbundled

/-!
What holds between the states before and after an action, whatever its outcome. A relation that can
be put together step by step holds across an action if it holds across the parts of the action.
-/

namespace DecoderTables

/-- Whatever the outcome, the states before and after the action are related. -/
def Always {σ α : Type} (related : σ → σ → Prop) (action : StateM σ α) : Prop :=
  ∀ before, related before (action before).2

section Parts

variable {σ α β : Type} {related : σ → σ → Prop}

theorem Always.of_eq {action : StateM σ α} {before after : σ} {result : α}
    (always : Always related action) (ended : action before = (result, after)) :
    related before after := by
  have kept := always before
  rwa [ended] at kept

variable [IsPreorder σ related]

theorem always_pure (value : α) : Always related (pure value : StateM σ α) :=
  refl_of related

theorem always_bind {first : StateM σ α} {next : α → StateM σ β} (early : Always related first)
    (late : ∀ item, Always related (next item)) : Always related (first >>= next) :=
  fun before => trans_of related (early before) (late _ _)

theorem always_attempt_bind {ε : Type} {first : ExceptT ε (StateM σ) α}
    {next : α → ExceptT ε (StateM σ) β} (early : Always related (first : StateM σ _))
    (late : ∀ item, Always related (next item : StateM σ _)) :
    Always related ((first >>= next : ExceptT ε (StateM σ) β) : StateM σ _) := by
  have continued : ∀ result, Always related (ExceptT.bindCont next result : StateM σ _) := by
    intro result
    cases result with
    | ok item => exact late item
    | error fault => exact always_pure _
  exact always_bind early continued

theorem always_blaming {ε : Type} {action : StateM σ (Except ε α)}
    (always : Always related action) (path : Path) (cause : ε → Cause) :
    Always related (blaming path cause action : Attempt (StateM σ) α) :=
  always_bind always fun _ => always_pure _

variable [Host (StateM σ)]

theorem always_readText (read : ∀ path,
    Always related (Host.readFile path : StateM σ (Except FileFault ByteArray))) (path : Path) :
    Always related (readText path : StateM σ (Except FileFault String)) := by
  apply always_bind (read path)
  intro found
  cases found with
  | error fault => exact always_pure _
  | ok bytes =>
    dsimp only
    split
    · exact always_pure _
    · exact always_pure _

theorem always_notifyAll
    (told : ∀ notice, Always related (Host.notify notice : StateM σ Unit)) (notices : List Notice) :
    Always related (notifyAll notices : StateM σ Unit) := by
  induction notices with
  | nil => exact always_pure _
  | cons notice notices ih => exact always_bind (told notice) fun _ => ih

theorem always_makeDirectories {paths : List Path}
    (made : ∀ path ∈ paths,
      Always related (Host.makeDirectory path : StateM σ (Except FileFault Unit)))
    (known : ∀ path, Always related (Host.isDirectory path : StateM σ Bool)) :
    Always related (makeDirectories paths : StateM σ (Except FileFault Unit)) := by
  have answered : ∀ path fault, Always related (do
      if ← Host.isDirectory path then return .ok () else return .error fault :
        StateM σ (Except FileFault Unit)) := by
    intro path fault
    apply always_bind (known path)
    intro there
    cases there with
    | true => exact always_pure _
    | false => exact always_pure _
  induction paths with
  | nil => exact always_pure _
  | cons path above ih =>
    obtain ⟨nearest, farther⟩ := List.forall_mem_cons.mp made
    unfold makeDirectories
    split
    · exact always_pure _
    · apply always_bind nearest
      intro result
      split
      · exact always_pure _
      · apply always_bind (ih farther)
        intro result
        cases result with
        | error fault => exact always_pure _
        | ok =>
          apply always_bind nearest
          intro result
          cases result with
          | ok => exact always_pure _
          | error fault => exact answered path fault
      · exact answered path _

end Parts

/-! The states that a host comes to. -/

section Operations

variable {σ : Type} [Host (StateM σ)]

/-- What an operation of a writing makes of the state, whatever its outcome. -/
inductive Operation : σ → σ → Prop
  | isDirectory (path : Path) (state : σ) :
      Operation state ((Host.isDirectory path : StateM σ Bool) state).2
  | makeDirectory (path : Path) (state : σ) :
      Operation state ((Host.makeDirectory path : StateM σ (Except FileFault Unit)) state).2
  | createFile (path : Path) (state : σ) :
      Operation state ((Host.createFile path : StateM σ (Except FileFault Unit)) state).2
  | writeFile (path : Path) (text : String) (state : σ) :
      Operation state ((Host.writeFile path text : StateM σ (Except FileFault Unit)) state).2
  | rename (source path : Path) (state : σ) :
      Operation state ((Host.rename source path : StateM σ (Except FileFault Unit)) state).2
  | removeFile (path : Path) (state : σ) :
      Operation state ((Host.removeFile path : StateM σ (Except FileFault Unit)) state).2
  | notify (notice : Notice) (state : σ) :
      Operation state ((Host.notify notice : StateM σ Unit) state).2

/-- The second state comes of the first by operations of a writing. -/
def Later : σ → σ → Prop :=
  Relation.ReflTransGen Operation

instance : IsPreorder σ Later :=
  inferInstanceAs (IsPreorder σ (Relation.ReflTransGen Operation))

theorem Operation.later {before after : σ} (operation : Operation before after) :
    Later before after :=
  Relation.ReflTransGen.single operation

theorem later_createWithParents (path : Path) :
    Always Later (createWithParents path : Attempt (StateM σ) Unit) := by
  have created : Always Later (blaming path .outputFile (Host.createFile path) :
      Attempt (StateM σ) Unit) :=
    always_blaming (fun state => (Operation.createFile path state).later) _ _
  unfold createWithParents
  cases path.parent? with
  | none => exact created
  | some parent =>
    apply always_attempt_bind (always_blaming _ _ _) fun _ => created
    exact always_makeDirectories (fun path _ state => (Operation.makeDirectory path state).later)
      fun path state => (Operation.isDirectory path state).later

theorem later_writeTemporary (artifact : Artifact) :
    Always Later (writeTemporary artifact : Attempt (StateM σ) Unit) := by
  apply always_attempt_bind (later_createWithParents artifact.temporary)
  intro
  exact always_blaming (fun state => (Operation.writeFile _ _ state).later) _ _

theorem later_removeAll (paths : List Path) : Always Later (removeAll paths : StateM σ Unit) := by
  induction paths with
  | nil => exact always_pure _
  | cons path paths ih =>
    exact always_bind (fun state => (Operation.removeFile path state).later) fun _ => ih

theorem later_cleaningUp (paths : List Path) {action : Attempt (StateM σ) Unit}
    (later : Always Later (action : StateM σ _)) :
    Always Later (cleaningUp paths action : Attempt (StateM σ) Unit) := by
  intro before
  cases ended : (cleaningUp paths action : Attempt (StateM σ) Unit) before with
  | mk result after =>
    cases result with
    | ok => exact later.of_eq ((run_cleaningUp_ok_iff _ _ _ _).mp ended)
    | error fault =>
      obtain ⟨middle, stopped, rfl⟩ := (run_cleaningUp_error_iff _ _ _ _ _).mp ended
      exact trans_of Later (later.of_eq stopped) (later_removeAll paths middle)

theorem later_writeTemporaries (written : List Path) (artifacts : List Artifact) :
    Always Later (writeTemporaries written artifacts : Attempt (StateM σ) Unit) := by
  induction artifacts generalizing written with
  | nil => exact always_pure _
  | cons artifact artifacts ih =>
    exact always_attempt_bind (later_cleaningUp _ (later_writeTemporary artifact)) fun _ => ih _

theorem later_moveIntoPlace (artifacts : List Artifact) :
    Always Later (moveIntoPlace artifacts : Attempt (StateM σ) Unit) := by
  induction artifacts with
  | nil => exact always_pure _
  | cons artifact artifacts ih =>
    have renamed : Always Later (blaming artifact.path .generate
        (Host.rename artifact.temporary artifact.path) : Attempt (StateM σ) Unit) :=
      always_blaming (fun state => (Operation.rename _ _ state).later) _ _
    apply always_attempt_bind (later_cleaningUp _ renamed)
    intro
    exact always_attempt_bind (fun state => (Operation.notify _ state).later) fun _ => ih

end Operations

end DecoderTables
