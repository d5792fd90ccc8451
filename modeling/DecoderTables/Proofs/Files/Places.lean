import DecoderTables.Files.Disk
import DecoderTables.Proofs.Results
import DecoderTables.Proofs.Text.Pieces
import Mathlib.Data.List.Basic

/-!
Where paths lead, and what the operations of a disk change there. A path that is followed with
success leads to the place that its text spells, so a path keeps its place while directories only
grow.
-/

namespace DecoderTables

/-- One name further, without asking what is there. -/
def Place.enter (place : Place) (name : String) : Place :=
  if name = "." then place else if name = ".." then place.dropLast else place ++ [name]

namespace Disk

/-- The names of a path without the empty ones. -/
def names (path : Path) : List String :=
  (Path.pieces path).filter (!·.isEmpty)

/-- The place that a path spells. -/
def place (disk : Disk) (path : Path) : Place :=
  (names path).foldl Place.enter (disk.start path)

/-- The content of the file at a place. -/
def file? (disk : Disk) (place : Place) : Option ByteArray :=
  match disk.get? place with
  | some (.file bytes) => some bytes
  | _ => none

/-- The working directory stays, and so do all directories. -/
structure Grows (before after : Disk) : Prop where
  working : after.working = before.working
  directories : ∀ place, before.get? place = some .directory →
    after.get? place = some .directory

/-- The path leads to the place and may be that of a file. -/
def Reaches (disk : Disk) (path : Path) (place : Place) : Prop :=
  ∃ directory name, disk.target path = .ok ⟨directory, some name, false⟩ ∧
    name.utf8ByteSize ≤ longestName ∧ place = directory ++ [name]

namespace Grows

variable {before middle after : Disk}

theorem refl (disk : Disk) : Grows disk disk :=
  ⟨rfl, fun _ known => known⟩

theorem trans (first : Grows before middle) (second : Grows middle after) :
    Grows before after :=
  ⟨second.working.trans first.working,
    fun place known => second.directories place (first.directories place known)⟩

theorem start_eq (grows : Grows before after) : after.start = before.start := by
  funext path
  unfold start
  rw [grows.working]

theorem place_eq (grows : Grows before after) : after.place = before.place := by
  funext path
  unfold place
  rw [grows.start_eq]

end Grows

/-! Following names. -/

theorem child?_eq_ok_iff (disk : Disk) (directory : Place) (name : String) (node : Option Node) :
    disk.child? directory name = .ok node ↔
      name.utf8ByteSize ≤ longestName ∧ disk.get? (directory ++ [name]) = node := by
  unfold child?
  by_cases long : longestName < name.utf8ByteSize
  · simp [long, Nat.not_le_of_lt long]
  · simp [long, Nat.le_of_not_lt long]

theorem follow_cons_eq_ok_iff (disk : Disk) (directory : Place) (name : String)
    (names : List String) (place : Place) :
    disk.follow directory (name :: names) = .ok place ↔
      (name = "." ∨ name = ".." ∨ name.utf8ByteSize ≤ longestName ∧
        disk.get? (directory ++ [name]) = some .directory) ∧
      disk.follow (Place.enter directory name) names = .ok place := by
  by_cases here : name = "."
  · subst here
    simp [follow, Place.enter]
  by_cases above : name = ".."
  · subst above
    simp [follow, Place.enter]
  have entered : Place.enter directory name = directory ++ [name] := by
    simp [Place.enter, here, above]
  rw [follow, bind_eq_ok_iff, entered]
  · simp only [child?_eq_ok_iff, here, above, false_or]
    apply Iff.intro
    · intro given
      obtain ⟨node, ⟨short, found⟩, rest⟩ := given
      split at rest
      · cases rest
      · cases rest
      · exact ⟨⟨short, found⟩, rest⟩
    · intro given
      obtain ⟨known, rest⟩ := given
      exact ⟨_, known, rest⟩
  · exact fun same => here same
  · exact fun same => above same

theorem follow_eq_place {disk : Disk} {directory : Place} {names : List String} {place : Place}
    (followed : disk.follow directory names = .ok place) :
    place = names.foldl Place.enter directory := by
  induction names generalizing directory with
  | nil =>
    cases followed
    rfl
  | cons name names ih => exact ih ((follow_cons_eq_ok_iff _ _ _ _ _).mp followed).2

theorem follow_of_grows {before after : Disk} (grows : Grows before after) {directory : Place}
    {names : List String} {place : Place} (followed : before.follow directory names = .ok place) :
    after.follow directory names = .ok place := by
  induction names generalizing directory with
  | nil => exact followed
  | cons name names ih =>
    rw [follow_cons_eq_ok_iff] at followed ⊢
    refine ⟨?_, ih followed.2⟩
    rcases followed.1 with here | above | ⟨short, known⟩
    · exact Or.inl here
    · exact Or.inr (Or.inl above)
    · exact Or.inr (Or.inr ⟨short, grows.directories _ known⟩)

/-- The target of a path with a name that is not a dot: the path is within bounds, and the names
before it are those of directories. -/
theorem target_eq_ok_iff (disk : Disk) (path : Path) (directory : Place) (name : String)
    (slash : Bool) :
    disk.target path = .ok ⟨directory, some name, slash⟩ ↔
      ('\x00' ∉ path.toList ∧ path.isEmpty = false ∧ path.utf8ByteSize ≤ longestPath) ∧
        slash = decide (path.toList.getLast? = some '/') ∧
        (names path).getLast? = some name ∧ isDots name = false ∧
        disk.follow (disk.start path) (names path).dropLast = .ok directory := by
  unfold target
  by_cases zero : '\x00' ∈ path.toList
  · simp [zero]
  by_cases empty : path.isEmpty = true
  · simp [zero, empty]
  by_cases long : longestPath < path.utf8ByteSize
  · simp [zero, empty, long, Nat.not_le_of_lt long]
  have valid : '\x00' ∉ path.toList ∧ path.isEmpty = false ∧ path.utf8ByteSize ≤ longestPath :=
    ⟨zero, Bool.eq_false_iff.mpr empty, Nat.le_of_not_lt long⟩
  rw [if_neg zero, if_neg empty, if_neg long, and_iff_right valid]
  have pieces : (Path.pieces path).filter (!·.isEmpty) = names path := rfl
  dsimp only
  rw [pieces]
  cases final : (names path).getLast? with
  | none => simp
  | some last =>
    dsimp only
    rw [Option.some.injEq]
    cases dots : isDots last with
    | true =>
      rw [if_pos rfl, bind_eq_ok_iff]
      apply Iff.intro
      · intro given
        obtain ⟨_, _, made⟩ := given
        cases made
      · intro given
        obtain ⟨_, rfl, plain, _⟩ := given
        rw [dots] at plain
        cases plain
    | false =>
      rw [if_neg (by decide), bind_eq_ok_iff]
      apply Iff.intro
      · intro given
        obtain ⟨_, followed, made⟩ := given
        cases made
        exact ⟨rfl, rfl, dots, followed⟩
      · intro given
        obtain ⟨rfl, rfl, _, followed⟩ := given
        exact ⟨directory, followed, rfl⟩

theorem target_of_grows {before after : Disk} (grows : Grows before after) {path : Path}
    {target : Target} (found : before.target path = .ok target) :
    after.target path = .ok target := by
  unfold Disk.target at found ⊢
  rw [grows.start_eq]
  by_cases zero : '\x00' ∈ path.toList
  · rwa [if_pos zero] at found ⊢
  by_cases empty : path.isEmpty = true
  · rwa [if_neg zero, if_pos empty] at found ⊢
  by_cases long : longestPath < path.utf8ByteSize
  · rwa [if_neg zero, if_neg empty, if_pos long] at found ⊢
  rw [if_neg zero, if_neg empty, if_neg long] at found ⊢
  dsimp only at found ⊢
  cases final : ((Path.pieces path).filter (!·.isEmpty)).getLast? with
  | none => rwa [final] at found
  | some last =>
    rw [final] at found
    cases dots : isDots last with
    | true =>
      simp only [dots, if_true, bind_eq_ok_iff] at found ⊢
      obtain ⟨directory, followed, made⟩ := found
      exact ⟨directory, follow_of_grows grows followed, made⟩
    | false =>
      simp only [dots, Bool.false_eq_true, if_false, bind_eq_ok_iff] at found ⊢
      obtain ⟨directory, followed, made⟩ := found
      exact ⟨directory, follow_of_grows grows followed, made⟩

theorem Reaches.of_grows {before after : Disk} (grows : Grows before after) {path : Path}
    {place : Place} (reaches : before.Reaches path place) : after.Reaches path place := by
  obtain ⟨directory, name, found, short, same⟩ := reaches
  exact ⟨directory, name, target_of_grows grows found, short, same⟩

theorem enter_of_plain {name : String} (plain : isDots name = false) (place : Place) :
    Place.enter place name = place ++ [name] := by
  rw [isDots, Bool.or_eq_false_iff, decide_eq_false_iff_not, decide_eq_false_iff_not] at plain
  rw [Place.enter, if_neg plain.1, if_neg plain.2]

theorem place_of_target {disk : Disk} {path : Path} {directory : Place} {name : String}
    {slash : Bool} (found : disk.target path = .ok ⟨directory, some name, slash⟩) :
    disk.place path = directory ++ [name] := by
  obtain ⟨_, _, final, plain, followed⟩ := (target_eq_ok_iff _ _ _ _ _).mp found
  have split := List.dropLast_append_getLast? name final
  rw [Disk.place, ← split, List.foldl_append, ← follow_eq_place followed]
  exact enter_of_plain plain directory

theorem Reaches.place_eq {disk : Disk} {path : Path} {place : Place}
    (reaches : disk.Reaches path place) : place = disk.place path := by
  obtain ⟨directory, name, found, _, rfl⟩ := reaches
  exact (place_of_target found).symm

theorem Reaches.ne_nil {disk : Disk} {path : Path} {place : Place}
    (reaches : disk.Reaches path place) : place ≠ [] := by
  obtain ⟨directory, name, _, _, rfl⟩ := reaches
  simp

/-- What is added to a text without a slash in it joins the last piece of the text before it. -/
theorem splitOn_append_of_not_mem (chars tail : List Char) (free : '/' ∉ tail) :
    ∃ before last, chars.splitOn '/' = before ++ [last] ∧
      (chars ++ tail).splitOn '/' = before ++ [last ++ tail] ∧
      (last = [] → chars = [] ∨ chars.getLast? = some '/') := by
  obtain ⟨before, last, pieces, plain, ⟨rfl, rfl⟩ | ⟨front, rfl, split⟩⟩ :=
    Text.exists_last_piece '/' chars
  · exact ⟨[], chars, pieces, List.splitOn_eq_singleton (by simp [plain, free]), Or.inl⟩
  · have long : '/' ∉ last ++ tail := by simp [plain, free]
    refine ⟨front.splitOn '/', last, pieces, ?_, ?_⟩
    · rw [split, List.append_assoc, List.cons_append, List.splitOn_append_cons_self,
        List.splitOn_eq_singleton long]
    · intro none
      simp [split, none]

theorem names_temporary {path : Path} {name : String} (slash : path.toList.getLast? ≠ some '/')
    (final : (names path).getLast? = some name) :
    names path.temporary = (names path).dropLast ++ [name ++ ".tmp"] := by
  obtain ⟨before, last, pieces, longer, plain⟩ :=
    splitOn_append_of_not_mem path.toList ".tmp".toList (by decide)
  have filled : last ≠ [] := by
    intro none
    rcases plain none with empty | ends
    · simp [names, Path.pieces, empty] at final
    · exact slash ends
  have first : names path =
      (before.map String.ofList).filter (!·.isEmpty) ++ [String.ofList last] := by
    simp [names, Path.pieces, pieces, filled]
  have second : names path.temporary =
      (before.map String.ofList).filter (!·.isEmpty) ++ [String.ofList last ++ ".tmp"] := by
    have text : path.temporary.toList = path.toList ++ ".tmp".toList := String.toList_append
    rw [names, Path.pieces, text, longer]
    simp
  rw [first, List.getLast?_concat, Option.some.injEq] at final
  rw [second, first, List.dropLast_concat, final]

/-- The temporary file of a path stands next to the file of the path. -/
theorem Reaches.place_temporary {disk : Disk} {path : Path} {place : Place}
    (reaches : disk.Reaches path place) :
    ∃ directory name, disk.place path = directory ++ [name] ∧
      disk.place path.temporary = directory ++ [name ++ ".tmp"] := by
  have same := reaches.place_eq
  obtain ⟨directory, name, found, _, rfl⟩ := reaches
  obtain ⟨valid, slash, final, plain, followed⟩ := (target_eq_ok_iff _ _ _ _ _).mp found
  have start : disk.start path.temporary = disk.start path := by
    have text : path.temporary.toList = path.toList ++ ".tmp".toList := String.toList_append
    have filled : path.toList ≠ [] := by
      intro empty
      rw [String.isEmpty_eq_false_iff] at valid
      exact valid.2.1 (String.toList_eq_nil_iff.mp empty)
    rw [start, start, text, List.head?_append_of_ne_nil _ filled]
  have other : isDots (name ++ ".tmp") = false := by
    have length : 4 ≤ (name ++ ".tmp").length := by
      rw [String.length_append]
      exact Nat.le_add_left 4 name.length
    rw [isDots, Bool.or_eq_false_iff, decide_eq_false_iff_not, decide_eq_false_iff_not]
    constructor
    · intro same
      exact absurd (same ▸ length) (by decide)
    · intro same
      exact absurd (same ▸ length) (by decide)
  refine ⟨directory, name, same.symm, ?_⟩
  rw [Disk.place, names_temporary (by simpa using slash) final, start, List.foldl_append,
    ← follow_eq_place followed]
  exact enter_of_plain other directory

end Disk

end DecoderTables
