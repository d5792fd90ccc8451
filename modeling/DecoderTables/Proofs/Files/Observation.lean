import DecoderTables.Proofs.Files.Steps

/-!
Actions that only look at files. What such an action gives depends on the files alone, and it leaves
them as they are. Nothing is assumed about how a host keeps its files, or why it refuses to read
one.
-/

namespace DecoderTables

section Observation

variable {σ τ ε α β : Type}

/-- The files of the state are the same. -/
def Keeps (files : σ → τ) (before after : σ) : Prop :=
  files after = files before

instance (files : σ → τ) : IsPreorder σ (Keeps files) where
  refl _ := rfl
  trans _ _ _ first second := Eq.trans second first

/-- The action succeeds with exactly the values that are right for the files, and keeps the files
whatever its outcome. -/
structure Gives (files : σ → τ) (action : StateM σ (Except ε α)) (right : τ → α → Prop) : Prop where
  result : ∀ before value, (action before).1 = .ok value ↔ right (files before) value
  keeps : Always (Keeps files) action

variable {files : σ → τ} {right : τ → α → Prop}

theorem Gives.congr {other : τ → α → Prop} {action : StateM σ (Except ε α)}
    (gives : Gives files action right)
    (same : ∀ state value, right state value ↔ other state value) : Gives files action other where
  result before value := (gives.result before value).trans (same _ _)
  keeps := gives.keeps

theorem gives_pure (result : Except ε α) :
    Gives files (pure result : StateM σ (Except ε α)) fun _ value => result = .ok value where
  result _ _ := Iff.rfl
  keeps := always_pure result

theorem gives_bind {first : Attempt (StateM σ) α} {next : α → Attempt (StateM σ) β}
    {rest : α → τ → β → Prop} (early : Gives files (first : StateM σ _) right)
    (late : ∀ item, Gives files (next item : StateM σ _) (rest item)) :
    Gives files ((first >>= next : Attempt (StateM σ) β) : StateM σ _)
      fun state value => ∃ item, right state item ∧ rest item state value where
  keeps := always_attempt_bind early.keeps fun item => (late item).keeps
  result before value := by
    apply Iff.intro
    · intro done
      obtain ⟨item, middle, began, ended⟩ :=
        (run_bind_ok_iff first next _ _ _).mp (Prod.ext done rfl)
      have kept : files middle = files before := early.keeps.of_eq began
      refine ⟨item, (early.result before item).mp (congrArg Prod.fst began), ?_⟩
      rw [← kept]
      exact ((late item).result middle value).mp (congrArg Prod.fst ended)
    · intro given
      obtain ⟨item, began, ended⟩ := given
      have kept : files (first before).2 = files before := early.keeps before
      have began := (early.result before item).mpr began
      rw [← kept] at ended
      have ended := ((late item).result _ value).mpr ended
      exact congrArg Prod.fst ((run_bind_ok_iff first next _ _ _).mpr
        ⟨item, _, Prod.ext began rfl, Prod.ext ended rfl⟩)

/-- Something is told first, which cannot fail. -/
theorem gives_told {told : StateM σ Unit} {next : Unit → Attempt (StateM σ) α}
    (early : Always (Keeps files) told) (late : Gives files (next () : StateM σ _) right) :
    Gives files ((liftM told >>= next : Attempt (StateM σ) α) : StateM σ _) right where
  keeps := always_attempt_bind early fun _ => late.keeps
  result before value := by
    have kept : files (told before).2 = files before := early before
    rw [← kept]
    exact late.result _ value

theorem gives_blaming {action : StateM σ (Except ε α)} (gives : Gives files action right)
    (path : Path) (cause : ε → Cause) :
    Gives files (blaming path cause action : Attempt (StateM σ) α) right where
  keeps := always_blaming gives.keeps path cause
  result before value := by
    rw [← gives.result before value]
    exact mapError_eq_ok_iff _ _ _

end Observation

/-! Reading files as text. -/

theorem fromUTF8?_eq_some_iff (bytes : ByteArray) (text : String) :
    String.fromUTF8? bytes = some text ↔ bytes = text.toUTF8 := by
  rw [String.fromUTF8?]
  split
  · next valid =>
    rw [Option.some.injEq, ← String.toByteArray_inj]
    exact Iff.rfl
  · next invalid =>
    apply Iff.intro
    · intro same
      cases same
    · rintro rfl
      exact absurd text.isValidUTF8 (by simpa using invalid)

section Reading

variable {σ τ : Type} [Host (StateM σ)]

/-- What reading a file gives is settled by the files, and neither reading nor telling changes
them. -/
structure Readable (files : σ → τ) (read : τ → Path → Except FileFault ByteArray) : Prop where
  readFile : ∀ path before,
    ((Host.readFile path : StateM σ (Except FileFault ByteArray)) before).1 =
      read (files before) path
  reading : ∀ path, Always (Keeps files)
    (Host.readFile path : StateM σ (Except FileFault ByteArray))
  output : ∀ text, Always (Keeps files) (Host.output text : StateM σ (Except FileFault Unit))
  announce : ∀ text, Always (Keeps files) (Host.announce text : StateM σ Unit)
  complain : ∀ text, Always (Keeps files) (Host.complain text : StateM σ Unit)
  notify : ∀ notice, Always (Keeps files) (Host.notify notice : StateM σ Unit)
  showsColors : Always (Keeps files) (Host.showsColors : StateM σ Bool)

theorem Machine.readable : Readable Machine.disk Disk.readFile where
  readFile _ _ := rfl
  reading _ _ := rfl
  output _ _ := rfl
  announce _ _ := rfl
  complain _ _ := rfl
  notify _ _ := rfl
  showsColors _ := rfl

/-- The text of bytes that were read. -/
def decoded (bytes : ByteArray) : Except FileFault String :=
  match String.fromUTF8? bytes with
  | some text => .ok text
  | none => .error .notUtf8

theorem decoded_eq_ok_iff (bytes : ByteArray) (text : String) :
    decoded bytes = .ok text ↔ bytes = text.toUTF8 := by
  rw [← fromUTF8?_eq_some_iff, decoded]
  cases String.fromUTF8? bytes <;> simp

variable {files : σ → τ} {read : τ → Path → Except FileFault ByteArray}
variable (readable : Readable files read)
include readable

theorem readText_result (path : Path) (before : σ) :
    ((readText path : StateM σ (Except FileFault String)) before).1 =
      read (files before) path >>= decoded := by
  have answer := readable.readFile path before
  cases found : (Host.readFile path : StateM σ (Except FileFault ByteArray)) before with
  | mk result middle =>
    rw [found] at answer
    rw [← answer, readText, run_bind_of_eq found]
    cases result with
    | error fault => rfl
    | ok bytes =>
      change _ = decoded bytes
      rw [decoded]
      dsimp only
      cases String.fromUTF8? bytes with
      | some text => rfl
      | none => rfl

theorem gives_readText (path : Path) :
    Gives files (readText path : StateM σ (Except FileFault String))
      fun state text => read state path = .ok text.toUTF8 where
  keeps := always_readText readable.reading path
  result before text := by
    rw [readText_result readable, bind_eq_ok_iff]
    simp only [decoded_eq_ok_iff, exists_eq_right]

end Reading

end DecoderTables
