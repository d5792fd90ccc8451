import DecoderTables.Files.Disk
import DecoderTables.Generator
import DecoderTables.Proofs.Results

/-!
How actions of the generator end. Such an action takes a state to a result and the next state, so
the way it ends is an equation, and one made of parts ends as its parts do.
-/

namespace DecoderTables

section Runs

variable {σ α β : Type}

theorem run_bind_of_eq {first : StateM σ α} {item : α} {before middle : σ}
    (ran : first before = (item, middle)) (next : α → StateM σ β) :
    (first >>= next) before = next item middle := by
  change next (first before).1 (first before).2 = _
  rw [ran]

theorem run_bind_ok_iff {ε : Type} (first : ExceptT ε (StateM σ) α)
    (next : α → ExceptT ε (StateM σ) β) (before : σ) (value : β) (after : σ) :
    (first >>= next) before = (.ok value, after) ↔
      ∃ item middle, first before = (.ok item, middle) ∧ next item middle = (.ok value, after) := by
  have step : (first >>= next) before = ExceptT.bindCont next (first before).1 (first before).2 :=
    rfl
  rw [step]
  rcases first before with ⟨result, middle⟩
  cases result with
  | ok item =>
    apply Iff.intro
    · intro done
      exact ⟨item, middle, rfl, done⟩
    · intro given
      obtain ⟨_, _, same, done⟩ := given
      cases same
      exact done
  | error fault =>
    apply Iff.intro
    · intro done
      cases done
    · intro given
      obtain ⟨_, _, same, _⟩ := given
      cases same

theorem run_bind_error_iff (first : Attempt (StateM σ) α) (next : α → Attempt (StateM σ) β)
    (before : σ) (error : GeneratorError) (after : σ) :
    (first >>= next) before = (.error error, after) ↔
      first before = (.error error, after) ∨
      ∃ item middle, first before = (.ok item, middle) ∧
        next item middle = (.error error, after) := by
  have step : (first >>= next) before = ExceptT.bindCont next (first before).1 (first before).2 :=
    rfl
  rw [step]
  rcases first before with ⟨result, middle⟩
  cases result with
  | ok item =>
    apply Iff.intro
    · intro done
      exact .inr ⟨item, middle, rfl, done⟩
    · intro given
      rcases given with same | ⟨_, _, same, done⟩
      · cases same
      · cases same
        exact done
  | error fault =>
    apply Iff.intro
    · intro done
      cases done
      exact .inl rfl
    · intro given
      rcases given with same | ⟨_, _, same, _⟩
      · cases same
        rfl
      · cases same

theorem run_blaming_ok_iff {ε : Type} (path : Path) (cause : ε → Cause)
    (action : StateM σ (Except ε α)) (before : σ) (value : α) (after : σ) :
    blaming path cause action before = (.ok value, after) ↔
      action before = (.ok value, after) := by
  have step : blaming path cause action before =
      ((action before).1.mapError fun fault => ⟨path, cause fault⟩, (action before).2) := rfl
  rw [step]
  rcases action before with ⟨result, middle⟩
  cases result with
  | ok item =>
    apply Iff.intro
    · intro done
      cases done
      rfl
    · intro done
      cases done
      rfl
  | error fault =>
    apply Iff.intro
    · intro done
      cases done
    · intro done
      cases done

theorem run_blaming_error_iff {ε : Type} (path : Path) (cause : ε → Cause)
    (action : StateM σ (Except ε α)) (before : σ) (error : GeneratorError) (after : σ) :
    blaming path cause action before = (.error error, after) ↔
      ∃ fault, action before = (.error fault, after) ∧ error = ⟨path, cause fault⟩ := by
  have step : blaming path cause action before =
      ((action before).1.mapError fun fault => ⟨path, cause fault⟩, (action before).2) := rfl
  rw [step]
  rcases action before with ⟨result, middle⟩
  cases result with
  | ok item =>
    apply Iff.intro
    · intro done
      cases done
    · intro given
      obtain ⟨_, same, _⟩ := given
      cases same
  | error fault =>
    apply Iff.intro
    · intro done
      cases done
      exact ⟨fault, rfl, rfl⟩
    · intro given
      obtain ⟨_, same, rfl⟩ := given
      cases same
      rfl

variable [Host (StateM σ)]

theorem run_cleaningUp_ok_iff (paths : List Path) (action : Attempt (StateM σ) Unit)
    (before after : σ) :
    cleaningUp paths action before = (.ok (), after) ↔ action before = (.ok (), after) := by
  have step : cleaningUp paths action before =
      cleaningUp (m := StateM σ) paths (fun _ => action before) before := rfl
  rw [step]
  rcases action before with ⟨result, middle⟩
  cases result with
  | ok item => exact Iff.rfl
  | error fault =>
    apply Iff.intro
    · intro done
      cases done
    · intro done
      cases done

theorem run_cleaningUp_error_iff (paths : List Path) (action : Attempt (StateM σ) Unit)
    (before : σ) (error : GeneratorError) (after : σ) :
    cleaningUp paths action before = (.error error, after) ↔
      ∃ middle, action before = (.error error, middle) ∧
        after = ((removeAll paths : StateM σ Unit) middle).2 := by
  have step : cleaningUp paths action before =
      cleaningUp (m := StateM σ) paths (fun _ => action before) before := rfl
  rw [step]
  rcases action before with ⟨result, middle⟩
  cases result with
  | ok item =>
    apply Iff.intro
    · intro done
      cases done
    · intro given
      obtain ⟨_, same, _⟩ := given
      cases same
  | error fault =>
    apply Iff.intro
    · intro done
      cases done
      exact ⟨middle, rfl, rfl⟩
    · intro given
      obtain ⟨_, same, rfl⟩ := given
      cases same
      rfl

end Runs

/-- The action ends without an error, with the value and the machine after it. -/
structure Ends {α : Type} (action : Attempt (StateM Machine) α) (before : Machine) (value : α)
    (after : Machine) : Prop where
  result : (action before).1 = .ok value
  machine : (action before).2 = after

theorem ends_iff {α : Type} (action : Attempt (StateM Machine) α) (before : Machine) (value : α)
    (after : Machine) : Ends action before value after ↔ action before = (.ok value, after) := by
  apply Iff.intro
  · intro given
    obtain ⟨result, machine⟩ := given
    exact Prod.ext result machine
  · intro same
    exact ⟨congrArg Prod.fst same, congrArg Prod.snd same⟩

theorem ends_of_isOk (action : Attempt (StateM Machine) Unit) (before : Machine)
    (done : (action before).1.isOk = true) : Ends action before () (action before).2 := by
  obtain ⟨_, result⟩ := exists_ok_of_isOk done
  exact ⟨result, rfl⟩

theorem ends_bind_iff {α β : Type} (first : Attempt (StateM Machine) α)
    (next : α → Attempt (StateM Machine) β) (before : Machine) (value : β) (after : Machine) :
    Ends (first >>= next) before value after ↔
      ∃ item middle, Ends first before item middle ∧ Ends (next item) middle value after := by
  simp only [ends_iff]
  exact run_bind_ok_iff first next before value after

end DecoderTables
