import DecoderTables.Command.Run
import DecoderTables.Proofs.Files.Repetition
import DecoderTables.Proofs.Files.Staleness

/-!
How the command ends. With a check its status is zero only if there was nothing to report, and
neither a check nor the printing of tables changes a file.
-/

namespace DecoderTables
open Command

/-! A check that is asked for is done, whatever else is asked for. -/

theorem Found.addSetting_check {found changed : Found} {setting : Setting} {value : String}
    (added : found.addSetting setting value = some changed) : changed.check = found.check := by
  unfold Found.addSetting at added
  split at added
  · cases added
  · cases added
    rfl

theorem Found.check_of_read {found result : Found} {arguments : List Argument}
    (read : found.read arguments = some result)
    (asked : found.check = true ∨ .option "--check" none ∈ arguments) : result.check = true := by
  fun_induction Found.read found arguments with
  | case1 found =>
    cases read
    exact asked.resolve_right List.not_mem_nil
  | case2 found word arguments ih =>
    exact ih read (asked.imp_right (List.mem_of_ne_of_mem (by simp)))
  | case3 => cases read
  | case4 found name arguments _ _ ih => exact ih read (.inl rfl)
  | case5 found name setting value arguments _ ih =>
    obtain ⟨changed, added, read⟩ := Option.bind_eq_some_iff.mp read
    rw [← addSetting_check added] at asked
    exact ih changed read (asked.imp_right (List.mem_of_ne_of_mem (by simp)))
  | case6 found name setting value arguments named ih =>
    obtain ⟨changed, added, read⟩ := Option.bind_eq_some_iff.mp read
    rw [← addSetting_check added] at asked
    have other : Argument.option "--check" none ≠ .option name none := by
      rintro ⟨⟩
      cases named
    exact ih changed read (asked.imp_right fun member =>
      List.mem_of_ne_of_mem (by simp) (List.mem_of_ne_of_mem other member))
  | case7 => cases read

theorem Found.check_of_task? {found : Found} {task : Task} (known : found.task? = some task) :
    task.check = found.check := by
  unfold Found.task? at known
  split at known
  · simp only [Option.bind_eq_bind, Option.bind_eq_some_iff] at known
    obtain ⟨_, _, _, _, _, _, _, _, _, _, _, _, _, _, _, _, made⟩ := known
    cases made
    rfl
  · cases known

/-- Nothing else among the arguments, such as another kind of output, takes a check back. -/
theorem check_of_mem {texts : List String} {task : Task}
    (request : Request.ofArguments texts = .task task)
    (asked : "--check" ∈ texts.takeWhile (· != "--")) : task.check = true := by
  have argument : Argument.option "--check" none ∈
      (texts.takeWhile (· != "--")).flatMap Argument.ofText :=
    List.mem_flatMap.mpr ⟨"--check", asked, List.mem_singleton_self _⟩
  unfold Request.ofArguments at request
  dsimp only at request
  split at request
  · cases request
  · split at request
    · cases request
    · split at request
      · next work known =>
        cases request
        obtain ⟨found, read, known⟩ := Option.bind_eq_some_iff.mp known
        have checks := Found.check_of_read read (.inr argument)
        exact (Found.check_of_task? known).trans checks
      · cases request

/-! What the arguments ask for can be rendered. -/

theorem le_of_opcodeFirst? {text : String} {first : UInt32}
    (known : opcodeFirst? text = some first) : first ≤ HeaderOptions.opcodeFirstMax := by
  obtain ⟨n, _, bounded⟩ := Option.bind_eq_some_iff.mp known
  split at bounded
  · next below =>
    cases bounded
    have small : n < UInt32.size := Nat.lt_of_le_of_lt below (by decide)
    rw [UInt32.le_iff_toNat_le, UInt32.toNat_ofNat_of_lt' small]
    exact below
  · cases bounded

theorem value_holds {α : Type} (holds : α → Prop) {found : Found} {setting : Setting}
    {read : String → Option α} {default value : α} (usual : holds default)
    (given : ∀ text item, read text = some item → holds item)
    (known : found.value setting read default = some value) : holds value := by
  unfold Found.value at known
  split at known
  · cases known
    exact usual
  · exact given _ _ known

theorem isValid_of_task? {found : Found} {task : Task} (known : found.task? = some task) :
    task.generator.options.isValid = true := by
  unfold Found.task? at known
  split at known
  · simp only [Option.bind_eq_bind, Option.bind_eq_some_iff] at known
    obtain ⟨_, _, _, _, _, _, _, _, first, selector, _, _, _, _, _, _, made⟩ := known
    cases made
    have bounded := value_holds (· ≤ HeaderOptions.opcodeFirstMax) (by decide)
      (fun _ _ => le_of_opcodeFirst?) selector
    exact decide_eq_true bounded
  · cases known

theorem isValid_of_ofArguments {texts : List String} {task : Task}
    (request : Request.ofArguments texts = .task task) :
    task.generator.options.isValid = true := by
  unfold Request.ofArguments at request
  dsimp only at request
  split at request
  · cases request
  · split at request
    · cases request
    · split at request
      · next work known =>
        cases request
        obtain ⟨found, _, known⟩ := Option.bind_eq_some_iff.mp known
        exact isValid_of_task? known
      · cases request

theorem render_of_isValid {generator : Generator} (valid : generator.options.isValid = true)
    (tables : Tables) : ∃ artifacts, generator.render tables = .ok artifacts := by
  rw [Generator.render, Header.decoders?, if_pos valid]
  exact ⟨_, rfl⟩

section Attempt

variable {σ τ α : Type}

theorem run_adapt_ok_iff (attempt : Attempt (StateM σ) α) (before : σ) (value : α) (after : σ) :
    (attempt.adapt Failure.generator : ExceptT Failure (StateM σ) α) before = (.ok value, after) ↔
      attempt before = (.ok value, after) := by
  have step : (attempt.adapt Failure.generator : ExceptT Failure (StateM σ) α) before =
      ((attempt before).1.mapError Failure.generator, (attempt before).2) := rfl
  rw [step]
  rcases attempt before with ⟨result, middle⟩
  rw [Prod.mk.injEq, Prod.mk.injEq, mapError_eq_ok_iff]

theorem always_adapt {related : σ → σ → Prop} {attempt : Attempt (StateM σ) α}
    (always : Always related (attempt : StateM σ _)) :
    Always related (attempt.adapt Failure.generator : ExceptT Failure (StateM σ) α) :=
  always

end Attempt

section Command

variable {σ τ : Type} [Host (StateM σ)] {files : σ → τ}

/-- What is printed and how that ends does not matter: a check with a report does not succeed. -/
theorem runCheck_eq_ok_true_iff (task : Task) (before : σ) :
    ((task.runCheck : ExceptT Failure (StateM σ) Bool) before).1 = .ok true ↔
      ((task.generator.check : Attempt (StateM σ) (List Stale)) before).1 = .ok [] := by
  rw [Task.runCheck]
  apply Iff.intro
  · intro done
    obtain ⟨stale, middle, checked, ended⟩ := (run_bind_ok_iff _ _ _ _ _).mp (Prod.ext done rfl)
    have result := congrArg Prod.fst ((run_adapt_ok_iff _ _ _ _).mp checked)
    cases stale with
    | nil => exact result
    | cons first more =>
      rw [List.isEmpty_cons, if_neg Bool.false_ne_true] at ended
      obtain ⟨color, _, _, ended⟩ := (run_bind_ok_iff _ _ _ _ _).mp ended
      obtain ⟨_, _, _, ended⟩ := (run_bind_ok_iff _ _ _ _ _).mp ended
      cases ended
  · intro none
    have checked := (run_adapt_ok_iff _ _ _ _).mpr (Prod.ext none rfl)
    exact congrArg Prod.fst ((run_bind_ok_iff _ _ _ _ _).mpr ⟨[], _, checked, rfl⟩)

variable {read : τ → Path → Except FileFault ByteArray} (readable : Readable files read)
include readable

theorem keeps_color (mode : ColorMode) :
    Always (Keeps files) (mode.color : StateM σ Listing.Color) := by
  cases mode with
  | off => exact always_pure _
  | on => exact always_pure _
  | auto => exact always_bind readable.showsColors fun _ => always_pure _

theorem keeps_print (text : String) :
    Always (Keeps files) (print text : ExceptT Failure (StateM σ) Unit) := by
  apply always_bind (readable.output text)
  intro result
  split
  · exact always_pure _
  · exact always_pure _
  · exact always_pure _

theorem keeps_reportStale (color : Listing.Color) (stales : List Stale) :
    Always (Keeps files) (reportStale color stales : ExceptT Failure (StateM σ) Unit) := by
  induction stales with
  | nil => exact always_pure _
  | cons stale stales ih =>
    rw [reportStale]
    exact always_attempt_bind (readable.complain _) fun _ =>
      always_attempt_bind (keeps_print readable _) fun _ => ih

theorem keeps_runCheck (task : Task) :
    Always (Keeps files) (task.runCheck : ExceptT Failure (StateM σ) Bool) := by
  apply always_attempt_bind (always_adapt (Generator.gives_check readable task.generator).keeps)
  intro stales
  split
  · exact always_pure _
  · exact always_attempt_bind (keeps_color readable _) fun _ =>
      always_attempt_bind (keeps_reportStale readable _ _) fun _ => always_pure _

theorem keeps_printTables (task : Task) (view : Listing.Color → Tables → String) :
    Always (Keeps files) (task.printTables view : ExceptT Failure (StateM σ) Unit) :=
  always_attempt_bind (always_adapt (Generator.gives_build readable task.generator).keeps)
    fun _ => always_attempt_bind (keeps_color readable _) fun _ => keeps_print readable _

/-- Only the writing of headers may change a file. -/
theorem keeps_task {task : Task} (looks : task.check = true ∨ task.emit ≠ .headers) :
    Always (Keeps files) (task.run : ExceptT Failure (StateM σ) Bool) := by
  by_cases checks : task.check = true
  · rw [Task.run, if_pos checks]
    exact keeps_runCheck readable task
  · have prints := looks.resolve_left checks
    rw [Task.run, if_neg checks]
    cases emit : task.emit with
    | headers => exact absurd emit prints
    | json => exact always_attempt_bind (keeps_printTables readable task _) fun _ => always_pure _
    | table => exact always_attempt_bind (keeps_printTables readable task _) fun _ => always_pure _

variable {texts : List String} {task : Task} (request : Request.ofArguments texts = .task task)
include request

theorem keeps_run (looks : task.check = true ∨ task.emit ≠ .headers) :
    Always (Keeps files) (run texts : StateM σ UInt32) := by
  rw [run, request]
  dsimp only
  apply always_bind (keeps_task readable looks)
  intro result
  split
  · exact always_pure _
  · exact always_pure _
  · exact always_bind (readable.complain _) fun _ => always_pure _

omit readable in
theorem status_eq_zero_iff (before : σ) :
    ((run texts : StateM σ UInt32) before).1 = 0 ↔
      ((task.run : ExceptT Failure (StateM σ) Bool) before).1 = .ok true := by
  have failed : (1 : UInt32) ≠ 0 := by decide
  cases ended : (ExceptT.run task.run : StateM σ (Except Failure Bool)) before with
  | mk result after =>
    change _ ↔ ((ExceptT.run task.run : StateM σ (Except Failure Bool)) before).1 = _
    rw [ended, run, request]
    dsimp only
    rw [run_bind_of_eq ended]
    cases result with
    | error fault => exact iff_of_false failed (by simp)
    | ok clean =>
      cases clean with
      | true => exact iff_of_true rfl rfl
      | false => exact iff_of_false failed (by simp)

end Command

/-- A check leaves the files as they are, and succeeds with the reports on the decoder header and
the instruction header; a missing one is reported as empty. The status of the command is then zero
only without reports. Printing leaves the files as they are, too. -/
theorem check_reports {σ τ : Type} [Host (StateM σ)] {files : σ → τ}
    {read : τ → Path → Except FileFault ByteArray} (readable : Readable files read)
    (generator : Generator) (texts : List String) (before : σ) :
    files ((generator.check : Attempt (StateM σ) (List Stale)) before).2 = files before ∧
    (∀ stales, ((generator.check : Attempt (StateM σ) (List Stale)) before).1 = .ok stales ↔
      ∃ bytes artifacts, read (files before) generator.source = .ok bytes ∧
        generator.Renders bytes artifacts ∧
        artifacts.map (·.path) = [generator.decodersPath, generator.instrPath] ∧
        Reports (read (files before)) artifacts stales) ∧
    (∀ stales, ((generator.check : Attempt (StateM σ) (List Stale)) before).1 = .ok stales →
      ∀ path ∈ [generator.decodersPath, generator.instrPath],
        read (files before) path = .error .notFound → ∃ text, ⟨path, "", text⟩ ∈ stales) ∧
    ∀ task, Request.ofArguments texts = .task task →
      (task.check = true ∨ task.emit ≠ .headers →
        files ((run texts : StateM σ UInt32) before).2 = files before) ∧
      (∀ tables, ∃ artifacts, task.generator.render tables = .ok artifacts) ∧
      (task.check = true → (((run texts : StateM σ UInt32) before).1 = 0 ↔
        ∃ bytes artifacts, read (files before) task.generator.source = .ok bytes ∧
          task.generator.Renders bytes artifacts ∧
          Reports (read (files before)) artifacts [])) := by
  have gives := Generator.gives_check readable generator
  refine ⟨gives.keeps before, ?_, ?_, ?_⟩
  · intro stales
    rw [gives.result before stales]
    apply exists₂_congr
    intro bytes artifacts
    apply and_congr_right
    intro
    apply and_congr_right
    intro renders
    exact (and_iff_right renders.paths).symm
  · intro stales done path member missing
    obtain ⟨bytes, artifacts, _, renders, reports⟩ := (gives.result before stales).mp done
    rw [← renders.paths] at member
    obtain ⟨artifact, listed, rfl⟩ := List.mem_map.mp member
    exact ⟨artifact.text, reports.missing listed missing⟩
  · intro task request
    refine ⟨fun looks => keeps_run readable request looks before,
      render_of_isValid (isValid_of_ofArguments request), ?_⟩
    intro checks
    rw [status_eq_zero_iff request, Task.run, if_pos checks, runCheck_eq_ok_true_iff,
      (Generator.gives_check readable task.generator).result]

def freshTask : Task where
  generator := freshGenerator
  emit := .headers
  check := true
  color := .auto

theorem exists_check_fresh : ∃ stales,
    ((freshGenerator.check : Attempt (StateM Machine) (List Stale)) freshMachine).1 =
      .ok stales := by
  apply exists_ok_of_isOk
  decide +kernel

/-- Before the first generation both headers are missing. -/
theorem check_reports_fresh :
    Request.ofArguments ["--check", "isa.json", "--output-dir=out"] = .task freshTask ∧
    (∃ stales, ((freshGenerator.check : Attempt (StateM Machine) (List Stale)) freshMachine).1 =
        .ok stales ∧ ∃ text, ⟨freshGenerator.instrPath, "", text⟩ ∈ stales) ∧
    ((run ["--check", "isa.json", "--output-dir=out"] : StateM Machine UInt32)
      freshMachine).2.disk = freshMachine.disk ∧
    ((run ["--check", "isa.json", "--output-dir=out"] : StateM Machine UInt32)
      freshMachine).1 ≠ 0 := by
  have request : Request.ofArguments ["--check", "isa.json", "--output-dir=out"] =
      .task freshTask := by rfl
  have missing : freshMachine.disk.readFile freshGenerator.instrPath = .error .notFound := by
    decide +kernel
  obtain ⟨stales, result⟩ := exists_check_fresh
  obtain ⟨_, exactly, absent, command⟩ := check_reports Machine.readable freshGenerator
    ["--check", "isa.json", "--output-dir=out"] freshMachine
  obtain ⟨unchanged, _, status⟩ := command freshTask request
  obtain ⟨text, listed⟩ := absent stales result _ (.tail _ (.head _)) missing
  refine ⟨request, ⟨stales, result, text, listed⟩, unchanged (.inl rfl), ?_⟩
  intro zero
  obtain ⟨bytes, artifacts, held, renders, reports⟩ := (status rfl).mp zero
  have none_stale := (exactly []).mpr ⟨bytes, artifacts, held, renders, renders.paths, reports⟩
  rw [result] at none_stale
  cases none_stale
  cases listed

end DecoderTables
