import DecoderTables.Listing
import DecoderTables.Proofs.Command.Status
import DecoderTables.Proofs.Text.Difference

/-!
What is shown of a header that is out of date. Files are compared byte by byte but shown line by
line, so that nothing is shown of a file that has CR LF for LF.
-/

namespace DecoderTables

namespace Listing

/-- The two lines above the changes. -/
def heading (path : Path) : String :=
  "--- " ++ path ++ "\n+++ " ++ path ++ " (generated)\n"

/-- A removed line of the file or an added line of the header. -/
inductive Marked (color : Color) (current expected : String) : String → Prop
  | removed {line : String} (member : line ∈ Diff.linesOf current) :
      Marked color current expected (removed color line)
  | added {line : String} (member : line ∈ Diff.linesOf expected) :
      Marked color current expected (added color line)

theorem join_changeText (color : Color) (changes : List Change) :
    String.join (changes.map (changeText color)) =
      String.join ((changes.filter (!·.isBoth)).map (changeText color)) := by
  induction changes with
  | nil => rfl
  | cons change changes ih =>
    cases change with
    | both line =>
      rw [List.map_cons, String.join_cons, ih]
      exact String.empty_append
    | left line => rw [List.filter_cons_of_pos (by rfl), List.map_cons, List.map_cons,
        String.join_cons, String.join_cons, ih]
    | right line => rw [List.filter_cons_of_pos (by rfl), List.map_cons, List.map_cons,
        String.join_cons, String.join_cons, ih]

theorem marked_changeText {color : Color} {current expected : String} {change : Change}
    (member : change ∈ Diff.ofTexts current expected) (marks : change.isBoth = false) :
    Marked color current expected (changeText color change) := by
  cases change with
  | both line => cases marks
  | left line =>
    refine .removed ?_
    rw [← Diff.left_ofTexts current expected]
    exact List.mem_filterMap.mpr ⟨_, member, rfl⟩
  | right line =>
    refine .added ?_
    rw [← Diff.right_ofTexts current expected]
    exact List.mem_filterMap.mpr ⟨_, member, rfl⟩

/-- Lines are shown below the heading exactly if the texts differ in more than CR LF for LF. -/
theorem exists_diff_eq (color : Color) (path current expected : String) :
    ∃ marked, diff color path current expected = heading path ++ String.join marked ∧
      (∀ line ∈ marked, Marked color current expected line) ∧
      (marked ≠ [] ↔ Text.unixEnds current.toList ≠ Text.unixEnds expected.toList) := by
  refine ⟨((Diff.ofTexts current expected).filter (!·.isBoth)).map (changeText color), ?_, ?_, ?_⟩
  · rw [diff, join_changeText]
    rfl
  · intro line member
    obtain ⟨change, listed, rfl⟩ := List.mem_map.mp member
    obtain ⟨known, marks⟩ := List.mem_filter.mp listed
    exact marked_changeText known (by simpa using marks)
  · apply not_congr
    rw [List.map_eq_nil_iff, List.filter_eq_nil_iff, ← Diff.all_isBoth_iff]
    simp

end Listing

/-- Every report is on a file that differs. Its display has the heading and then removed and added
lines, at least one of them exactly if more than CR LF for LF differs. -/
theorem display_of_stale {σ τ : Type} [Host (StateM σ)] {files : σ → τ}
    {read : τ → Path → Except FileFault ByteArray} (readable : Readable files read)
    (generator : Generator) (before : σ) (stales : List Stale)
    (done : ((generator.check : Attempt (StateM σ) (List Stale)) before).1 = .ok stales)
    (color : Listing.Color) :
    ∀ stale ∈ stales, stale.current ≠ stale.expected ∧
      ∃ marked, Listing.diff color stale.path stale.current stale.expected =
          Listing.heading stale.path ++ String.join marked ∧
        (∀ line ∈ marked, Listing.Marked color stale.current stale.expected line) ∧
        (marked ≠ [] ↔
          Text.unixEnds stale.current.toList ≠ Text.unixEnds stale.expected.toList) := by
  intro stale listed
  obtain ⟨_, _, _, renders, reports⟩ :=
    ((Generator.gives_check readable generator).result before stales).mp done
  exact ⟨reports.current_ne_expected renders.nonempty listed,
    Listing.exists_diff_eq color stale.path stale.current stale.expected⟩

/-- All of a missing header is added. -/
theorem display_of_missing :
    ∃ stales, ((freshGenerator.check : Attempt (StateM Machine) (List Stale)) freshMachine).1 =
        .ok stales ∧
      ∃ stale ∈ stales, stale.current = "" ∧ ∃ marked, marked ≠ [] ∧
        Listing.diff .off stale.path stale.current stale.expected =
          Listing.heading stale.path ++ String.join marked := by
  have missing : freshMachine.disk.readFile freshGenerator.instrPath = .error .notFound := by
    decide +kernel
  obtain ⟨stales, done⟩ := exists_check_fresh
  obtain ⟨_, artifacts, _, renders, reports⟩ :=
    ((Generator.gives_check Machine.readable freshGenerator).result _ stales).mp done
  obtain ⟨artifact, member, path⟩ : ∃ artifact ∈ artifacts,
      artifact.path = freshGenerator.instrPath := by
    apply List.mem_map.mp
    rw [renders.paths]
    exact .tail _ (.head _)
  have listed := reports.missing member (path ▸ missing)
  obtain ⟨differs, marked, shown, _, changes⟩ := display_of_stale Machine.readable freshGenerator
    freshMachine stales done .off _ listed
  refine ⟨stales, done, _, listed, rfl, marked, changes.mpr ?_, shown⟩
  intro same
  have empty := (Text.unixEnds_eq_nil_iff _).mp same.symm
  exact differs (String.toList_eq_nil_iff.mp empty).symm

/-! A header that was given CR LF. -/

def plainGenerator : Generator :=
  { source := "isa.json" }

def emptyTables : Tables where
  opcodes := (List.range Selector.count).map Selector.invalidEntry
  decoders := []
  splitters := []
  instructions := []

def emptyHeaders : List Artifact :=
  [⟨"./op_decoders.h", Header.textOf (Header.decoderHeaderLines emptyTables {})⟩,
    ⟨"./instr.h", Header.instructions emptyTables {}⟩]

/-- The instruction header with a carriage return at the end of its first line. -/
def returnText : String :=
  Header.note ++ "\r\n" ++ Header.textOf (Header.instructionLines emptyTables {}).tail

def returnMachine : Machine where
  disk := { nodes := [
    (["isa.json"], .file "\x7b\x7d".toUTF8),
    (["op_decoders.h"], .file (Header.textOf (Header.decoderHeaderLines emptyTables {})).toUTF8),
    (["instr.h"], .file returnText.toUTF8)] }

theorem plainGenerator_renders : plainGenerator.Renders "\x7b\x7d".toUTF8 emptyHeaders := by
  have parsed : Document.read "\x7b\x7d" = .ok Document.empty := by cbv
  have built : Tables.build Document.empty = .ok emptyTables := by rfl
  exact ⟨Document.empty, emptyTables, ⟨_, (fromUTF8?_eq_some_iff _ _).mpr rfl, parsed⟩, built, rfl⟩

theorem instructions_emptyTables :
    Header.instructions emptyTables {} = Header.note ++ "\n" ++
      Header.textOf (Header.instructionLines emptyTables {}).tail :=
  String.join_cons

theorem unixEnds_returnText :
    Text.unixEnds returnText.toList =
      Text.unixEnds (Header.instructions emptyTables {}).toList := by
  have plain : Header.note.toList.getLast? ≠ some '\r' := by decide
  have feeds : "\r\n".toList = ['\r', '\n'] ∧ "\n".toList = ['\n'] := by decide
  have feed : ∀ text, Text.unixEnds (['\r', '\n'] ++ text) = Text.unixEnds (['\n'] ++ text) := by
    intro text
    rw [List.cons_append, List.singleton_append, Text.unixEnds, Text.unixEnds]
    simp
  rw [returnText, instructions_emptyTables, String.toList_append, String.toList_append,
    String.toList_append, String.toList_append, List.append_assoc, List.append_assoc,
    Text.unixEnds_append plain, Text.unixEnds_append plain, feeds.1, feeds.2, feed]

theorem returnText_ne : returnText ≠ Header.instructions emptyTables {} := by
  intro same
  have sizes := congrArg String.length same
  have feeds : "\r\n".length = 2 ∧ "\n".length = 1 := by decide
  rw [instructions_emptyTables, returnText, String.length_append, String.length_append,
    String.length_append, String.length_append] at sizes
  omega

theorem check_returnMachine :
    ((plainGenerator.check : Attempt (StateM Machine) (List Stale)) returnMachine).1 =
      .ok [⟨"./instr.h", returnText, Header.instructions emptyTables {}⟩] := by
  have renders := plainGenerator_renders
  have source : returnMachine.disk.readFile plainGenerator.source = .ok "\x7b\x7d".toUTF8 := rfl
  have decoders : returnMachine.disk.readFile "./op_decoders.h" =
      .ok (Header.textOf (Header.decoderHeaderLines emptyTables {})).toUTF8 := rfl
  have instructions : returnMachine.disk.readFile "./instr.h" = .ok returnText.toUTF8 := rfl
  have compared : Compared returnMachine.disk.readFile emptyHeaders
      [⟨"./instr.h", returnText, Header.instructions emptyTables {}⟩] := by
    exact .same (decoders ▸ .held _) (.differs (instructions ▸ .held _) returnText_ne .nil)
  exact ((Generator.gives_check Machine.readable plainGenerator).result _ _).mpr
    ⟨_, emptyHeaders, source, renders, (compared_iff_reports _ _ _ renders.nonempty).mp compared⟩

/-- The check reports the header, but nothing of it is shown. -/
theorem exists_empty_display :
    ∃ stale, ((plainGenerator.check : Attempt (StateM Machine) (List Stale)) returnMachine).1 =
        .ok [stale] ∧ stale.current ≠ stale.expected ∧
      ∀ color, Listing.diff color stale.path stale.current stale.expected =
        Listing.heading stale.path := by
  refine ⟨_, check_returnMachine, returnText_ne, ?_⟩
  intro color
  obtain ⟨marked, shown, _, changes⟩ :=
    Listing.exists_diff_eq color "./instr.h" returnText (Header.instructions emptyTables {})
  have none_marked : marked = [] := by
    by_contra some_marked
    exact changes.mp some_marked unixEnds_returnText
  rw [shown, none_marked]
  exact String.append_empty

end DecoderTables
