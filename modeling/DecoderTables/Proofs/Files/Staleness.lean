import DecoderTables.Proofs.Files.Rendering

/-!
Which headers a check reports. A missing file shows as the empty text, so it is told apart from a
file that is up to date only because no header is empty.
-/

namespace DecoderTables

/-- The text that a file shows: none if it is missing, else what its bytes encode. -/
inductive Shown : Except FileFault ByteArray → String → Prop
  | missing : Shown (.error .notFound) ""
  | held (text : String) : Shown (.ok text.toUTF8) text

/-- Whether a file is missing or differs from the text. -/
def outdated (found : Except FileFault ByteArray) (text : String) : Bool :=
  match found with
  | .error fault => fault = .notFound
  | .ok bytes => bytes.data != text.toUTF8.data

section Shown

variable {found : Except FileFault ByteArray} {text other : String}

theorem toUTF8_inj : text.toUTF8 = other.toUTF8 ↔ text = other :=
  String.toByteArray_inj

theorem shown_missing_iff : Shown (.error .notFound) text ↔ text = "" := by
  apply Iff.intro
  · intro shown
    cases shown
    rfl
  · rintro rfl
    exact .missing

theorem shown_ok_iff (bytes : ByteArray) : Shown (.ok bytes) text ↔ bytes = text.toUTF8 := by
  apply Iff.intro
  · intro shown
    cases shown
    rfl
  · rintro rfl
    exact .held text

theorem Shown.unique (shown : Shown found text) (again : Shown found other) : text = other := by
  cases shown with
  | missing => exact (shown_missing_iff.mp again).symm
  | held => exact toUTF8_inj.mp ((shown_ok_iff _).mp again)

theorem Shown.outdated_iff (shown : Shown found text) (nonempty : other ≠ "") :
    outdated found other = true ↔ text ≠ other := by
  cases shown with
  | missing => exact iff_of_true rfl nonempty.symm
  | held => rw [outdated, bne_iff_ne, ne_eq, ← ByteArray.ext_iff, toUTF8_inj]

end Shown

/-- What a stale header says is to be written. -/
def Stale.artifact (stale : Stale) : Artifact :=
  ⟨stale.path, stale.expected⟩

/-- The list names the artifacts whose files are missing or differ, in their order, and shows what
the files hold. -/
structure Reports (read : Path → Except FileFault ByteArray) (artifacts : List Artifact)
    (stales : List Stale) : Prop where
  readable : ∀ artifact ∈ artifacts, ∃ text, Shown (read artifact.path) text
  listed : stales.map Stale.artifact =
    artifacts.filter fun artifact => outdated (read artifact.path) artifact.text
  current : ∀ stale ∈ stales, Shown (read stale.path) stale.current

section Reports

variable {read : Path → Except FileFault ByteArray} {artifact : Artifact}
  {artifacts : List Artifact} {stales : List Stale} {text : String}

theorem reports_nil_iff : Reports read [] stales ↔ stales = [] := by
  apply Iff.intro
  · intro reports
    exact List.map_eq_nil_iff.mp reports.listed
  · rintro rfl
    exact ⟨by simp, rfl, by simp⟩

theorem reports_cons_of_shown (shown : Shown (read artifact.path) artifact.text)
    (nonempty : artifact.text ≠ "") :
    Reports read (artifact :: artifacts) stales ↔ Reports read artifacts stales := by
  have current : ¬outdated (read artifact.path) artifact.text = true :=
    mt (shown.outdated_iff nonempty).mp (not_not_intro rfl)
  have listed := List.filter_cons_of_neg
    (p := fun artifact : Artifact => outdated (read artifact.path) artifact.text)
    (l := artifacts) current
  apply Iff.intro
  · intro reports
    exact ⟨(List.forall_mem_cons.mp reports.readable).2, reports.listed.trans listed,
      reports.current⟩
  · intro reports
    exact ⟨List.forall_mem_cons.mpr ⟨⟨_, shown⟩, reports.readable⟩,
      reports.listed.trans listed.symm, reports.current⟩

theorem reports_cons_of_differs (shown : Shown (read artifact.path) text)
    (nonempty : artifact.text ≠ "") (differs : text ≠ artifact.text) :
    Reports read (artifact :: artifacts) stales ↔
      ∃ more, Reports read artifacts more ∧
        ⟨artifact.path, text, artifact.text⟩ :: more = stales := by
  have found := (shown.outdated_iff nonempty).mpr differs
  have listed := List.filter_cons_of_pos
    (p := fun artifact : Artifact => outdated (read artifact.path) artifact.text)
    (l := artifacts) found
  apply Iff.intro
  · intro reports
    obtain ⟨stale, more, rfl, same, rest⟩ := List.map_eq_cons_iff.mp (reports.listed.trans listed)
    obtain ⟨first, others⟩ := List.forall_mem_cons.mp reports.current
    refine ⟨more, ⟨(List.forall_mem_cons.mp reports.readable).2, rest, others⟩, ?_⟩
    obtain ⟨path, current, expected⟩ := stale
    cases same
    obtain rfl : current = text := first.unique shown
    rfl
  · intro given
    obtain ⟨more, reports, rfl⟩ := given
    refine ⟨List.forall_mem_cons.mpr ⟨⟨_, shown⟩, reports.readable⟩, ?_,
      List.forall_mem_cons.mpr ⟨shown, reports.current⟩⟩
    rw [listed, List.map_cons, reports.listed]
    rfl

theorem Reports.missing (reports : Reports read artifacts stales) (member : artifact ∈ artifacts)
    (missing : read artifact.path = .error .notFound) :
    ⟨artifact.path, "", artifact.text⟩ ∈ stales := by
  have found : artifact ∈ stales.map Stale.artifact := by
    rw [reports.listed]
    exact List.mem_filter.mpr ⟨member, by rw [missing]; rfl⟩
  obtain ⟨⟨path, current, expected⟩, listed, rfl⟩ := List.mem_map.mp found
  have shown : Shown (read path) current := reports.current _ listed
  have empty : read path = .error .notFound := missing
  rw [empty, shown_missing_iff] at shown
  exact shown ▸ listed

theorem Reports.current_ne_expected (reports : Reports read artifacts stales)
    (nonempty : ∀ artifact ∈ artifacts, artifact.text ≠ "") {stale : Stale}
    (member : stale ∈ stales) : stale.current ≠ stale.expected := by
  have found := List.mem_map_of_mem (f := Stale.artifact) member
  rw [reports.listed] at found
  obtain ⟨listed, differs⟩ := List.mem_filter.mp found
  have shown := reports.current stale member
  exact (shown.outdated_iff (nonempty _ listed)).mp differs

end Reports

/-- The list comes from comparing each artifact with the text that its file shows. -/
inductive Compared (read : Path → Except FileFault ByteArray) : List Artifact → List Stale → Prop
  | nil : Compared read [] []
  | same {artifact : Artifact} {artifacts : List Artifact} {stales : List Stale}
      (shown : Shown (read artifact.path) artifact.text)
      (rest : Compared read artifacts stales) : Compared read (artifact :: artifacts) stales
  | differs {artifact : Artifact} {artifacts : List Artifact} {stales : List Stale} {text : String}
      (shown : Shown (read artifact.path) text) (different : text ≠ artifact.text)
      (rest : Compared read artifacts stales) :
      Compared read (artifact :: artifacts) (⟨artifact.path, text, artifact.text⟩ :: stales)

section Compared

variable (read : Path → Except FileFault ByteArray) (artifact : Artifact)
  (artifacts : List Artifact) (stales : List Stale)

theorem compared_nil_iff : Compared read [] stales ↔ stales = [] := by
  apply Iff.intro
  · intro compared
    cases compared
    rfl
  · rintro rfl
    exact .nil

theorem compared_cons_iff :
    Compared read (artifact :: artifacts) stales ↔
      ∃ text, Shown (read artifact.path) text ∧
        if text = artifact.text then Compared read artifacts stales
        else ∃ more, Compared read artifacts more ∧
          ⟨artifact.path, text, artifact.text⟩ :: more = stales := by
  apply Iff.intro
  · intro compared
    cases compared with
    | same shown rest =>
      refine ⟨_, shown, ?_⟩
      rw [if_pos rfl]
      exact rest
    | differs shown different rest =>
      refine ⟨_, shown, ?_⟩
      rw [if_neg different]
      exact ⟨_, rest, rfl⟩
  · intro given
    obtain ⟨text, shown, rest⟩ := given
    by_cases same : text = artifact.text
    · rw [if_pos same] at rest
      exact .same (same ▸ shown) rest
    · rw [if_neg same] at rest
      obtain ⟨more, rest, rfl⟩ := rest
      exact .differs shown same rest

theorem compared_iff_reports (nonempty : ∀ artifact ∈ artifacts, artifact.text ≠ "") :
    Compared read artifacts stales ↔ Reports read artifacts stales := by
  induction artifacts generalizing stales with
  | nil => rw [compared_nil_iff, reports_nil_iff]
  | cons artifact artifacts ih =>
    obtain ⟨one, others⟩ := List.forall_mem_cons.mp nonempty
    apply Iff.intro
    · intro compared
      cases compared with
      | same shown rest => exact (reports_cons_of_shown shown one).mpr ((ih _ others).mp rest)
      | differs shown different rest =>
        exact (reports_cons_of_differs shown one different).mpr ⟨_, (ih _ others).mp rest, rfl⟩
    · intro reports
      obtain ⟨text, shown⟩ := reports.readable artifact List.mem_cons_self
      by_cases same : text = artifact.text
      · obtain rfl := same
        exact .same shown ((ih _ others).mpr ((reports_cons_of_shown shown one).mp reports))
      · obtain ⟨more, rest, rfl⟩ := (reports_cons_of_differs shown one same).mp reports
        exact .differs shown same ((ih _ others).mpr rest)

end Compared

/-- A missing file counts as an empty one. -/
def emptyIfMissing (found : Except FileFault String) : Except FileFault String :=
  match found with
  | .error .notFound => .ok ""
  | found => found

theorem emptyIfMissing_decoded (found : Except FileFault ByteArray) (text : String) :
    emptyIfMissing (found >>= decoded) = .ok text ↔ Shown found text := by
  cases found with
  | error fault =>
    by_cases missing : fault = .notFound
    · rw [missing, shown_missing_iff]
      change Except.ok "" = Except.ok text ↔ _
      rw [Except.ok.injEq, eq_comm]
    · apply iff_of_false
      · intro done
        cases fault with
        | notFound => exact missing rfl
        | _ => cases done
      · intro shown
        cases shown
        exact missing rfl
  | ok bytes =>
    rw [shown_ok_iff, ← decoded_eq_ok_iff]
    change emptyIfMissing (decoded bytes) = _ ↔ _
    rw [decoded]
    cases String.fromUTF8? bytes <;> exact Iff.rfl

namespace Generator

variable {σ τ : Type} [Host (StateM σ)] {files : σ → τ}
variable {read : τ → Path → Except FileFault ByteArray} (readable : Readable files read)
include readable

theorem currentText_result (path : Path) (before : σ) :
    ((currentText path : StateM σ (Except FileFault String)) before).1 =
      emptyIfMissing (read (files before) path >>= decoded) := by
  rw [← readText_result readable]
  cases found : (readText path : StateM σ (Except FileFault String)) before with
  | mk result middle =>
    rw [currentText, run_bind_of_eq found]
    cases result with
    | error fault => cases fault <;> rfl
    | ok text => rfl

theorem gives_currentText (path : Path) :
    Gives files (currentText path : StateM σ (Except FileFault String))
      fun state text => Shown (read state path) text where
  keeps := by
    apply always_bind (always_readText readable.reading path)
    intro found
    split
    · exact always_pure _
    · exact always_pure _
  result before text := by
    rw [currentText_result readable]
    exact emptyIfMissing_decoded _ _

theorem gives_staleAmong (artifacts : List Artifact) :
    Gives files (staleAmong artifacts : Attempt (StateM σ) (List Stale))
      fun state stales => Compared (read state) artifacts stales := by
  induction artifacts with
  | nil =>
    refine (gives_pure (.ok [])).congr ?_
    intro state stales
    rw [compared_nil_iff, Except.ok.injEq, eq_comm]
  | cons artifact artifacts ih =>
    have next : ∀ text, Gives files
        ((if text = artifact.text then staleAmong artifacts
          else do
            (Host.notify (.stale artifact.path) : StateM σ Unit)
            let stale ← staleAmong artifacts
            return ⟨artifact.path, text, artifact.text⟩ :: stale :
              Attempt (StateM σ) (List Stale)) : StateM σ _)
        fun state stales =>
          if text = artifact.text then Compared (read state) artifacts stales
          else ∃ more, Compared (read state) artifacts more ∧
            ⟨artifact.path, text, artifact.text⟩ :: more = stales := by
      intro text
      by_cases same : text = artifact.text
      · simp only [if_pos same]
        exact ih
      · simp only [if_neg same]
        have later := gives_bind ih fun more =>
          gives_pure (.ok (⟨artifact.path, text, artifact.text⟩ :: more))
        refine gives_told (readable.notify _) (later.congr ?_)
        intro state stales
        simp only [Except.ok.injEq]
    refine (gives_bind (gives_blaming (gives_currentText readable _) _ _) next).congr ?_
    intro state stales
    exact (compared_cons_iff _ _ _ _).symm

/-- A check succeeds with the reports on what the source renders to, and with nothing else. -/
theorem gives_check (generator : Generator) :
    Gives files (generator.check : Attempt (StateM σ) (List Stale)) fun state stales =>
      ∃ bytes artifacts, read state generator.source = .ok bytes ∧
        generator.Renders bytes artifacts ∧ Reports (read state) artifacts stales := by
  refine (gives_bind (gives_buildAndRender readable generator)
    (gives_staleAmong readable)).congr ?_
  intro state stales
  apply Iff.intro
  · intro given
    obtain ⟨artifacts, ⟨bytes, held, renders⟩, compared⟩ := given
    exact ⟨bytes, artifacts, held, renders,
      (compared_iff_reports _ _ _ renders.nonempty).mp compared⟩
  · intro given
    obtain ⟨bytes, artifacts, held, renders, reports⟩ := given
    exact ⟨artifacts, ⟨bytes, held, renders⟩,
      (compared_iff_reports _ _ _ renders.nonempty).mpr reports⟩

end Generator

end DecoderTables
