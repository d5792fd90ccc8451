import DecoderTables.Proofs.Files.Places
import Mathlib.Logic.Function.Basic

/-!
What the operations of a disk change. Each of them succeeds under a condition on the places of its
paths, and then changes the nodes at these places and no others. Directories only grow.
-/

namespace DecoderTables.Disk

/-- Directories are made at some of the places at most, and none is lost. -/
structure Extends (places : List Place) (before after : Disk) : Prop where
  grows : Grows before after
  only : ∀ place, after.get? place = some .directory →
    before.get? place = some .directory ∨ place ∈ places

/-- Directories are made at some of the places at most, and nothing else changes. -/
structure Prepares (places : List Place) (before after : Disk) : Prop
    extends Extends places before after where
  files : after.file? = before.file?

section Directories

variable {places more : List Place} {before middle after : Disk}

theorem Extends.refl (places : List Place) (disk : Disk) : Extends places disk disk :=
  ⟨Grows.refl disk, fun _ known => .inl known⟩

theorem Extends.trans (first : Extends places before middle)
    (second : Extends places middle after) : Extends places before after := by
  refine ⟨first.grows.trans second.grows, fun place known => ?_⟩
  rcases second.only place known with early | new
  · exact first.only place early
  · exact .inr new

theorem Extends.mono (extended : Extends places before after) (wider : places ⊆ more) :
    Extends more before after :=
  ⟨extended.grows, fun place known => (extended.only place known).imp_right fun new => wider new⟩

theorem Prepares.refl (places : List Place) (disk : Disk) : Prepares places disk disk :=
  ⟨Extends.refl places disk, rfl⟩

theorem Prepares.trans (first : Prepares places before middle)
    (second : Prepares places middle after) : Prepares places before after :=
  ⟨first.toExtends.trans second.toExtends, second.files.trans first.files⟩

theorem Prepares.mono (prepared : Prepares places before after) (wider : places ⊆ more) :
    Prepares more before after :=
  ⟨prepared.toExtends.mono wider, prepared.files⟩

end Directories

theorem lookup_filter_ne (nodes : List (Place × Node)) (gone place : Place) :
    (nodes.filter (·.1 ≠ gone)).lookup place =
      if place = gone then none else nodes.lookup place := by
  induction nodes with
  | nil => simp
  | cons node nodes ih =>
    obtain ⟨here, content⟩ := node
    by_cases same : here = gone
    · rw [List.filter_cons_of_neg (by simpa using same), ih, List.lookup_cons]
      by_cases asked : place = gone
      · rw [if_pos asked, if_pos asked]
      · have other : (place == here) = false := beq_eq_false_iff_ne.mpr (same ▸ asked)
        rw [if_neg asked, if_neg asked, other]
    · rw [List.filter_cons_of_pos (by simpa using same), List.lookup_cons, List.lookup_cons, ih]
      cases asked : place == here with
      | false => rfl
      | true => exact (if_neg (eq_of_beq asked ▸ same)).symm

theorem get?_of_ne_nil (disk : Disk) {place : Place} (below : place ≠ []) :
    disk.get? place = disk.nodes.lookup place := by
  cases place with
  | nil => exact absurd rfl below
  | cons name names => rfl

theorem get?_erase (disk : Disk) {gone : Place} (below : gone ≠ []) (place : Place) :
    (disk.erase gone).get? place = if place = gone then none else disk.get? place := by
  by_cases root : place = []
  · subst root
    simp [get?, below.symm]
  · rw [get?_of_ne_nil _ root, get?_of_ne_nil _ root]
    exact lookup_filter_ne disk.nodes gone place

theorem get?_put (disk : Disk) {new : Place} (below : new ≠ []) (node : Node) (place : Place) :
    (disk.put new node).get? place = if place = new then some node else disk.get? place := by
  by_cases root : place = []
  · subst root
    simp [get?, below.symm]
  · rw [get?_of_ne_nil _ root, get?_of_ne_nil _ root, put, List.lookup_cons]
    by_cases same : place = new
    · simp [same]
    · have other : (place == new) = false := beq_eq_false_iff_ne.mpr same
      rw [other, if_neg same]
      exact (lookup_filter_ne disk.nodes new place).trans (if_neg same)

theorem file?_put (disk : Disk) {new : Place} (below : new ≠ []) (bytes : ByteArray) :
    (disk.put new (.file bytes)).file? = Function.update disk.file? new (some bytes) := by
  funext place
  unfold file?
  rw [get?_put disk below]
  by_cases same : place = new
  · rw [same, if_pos rfl, Function.update_self]
  · rw [if_neg same, Function.update_of_ne same]

theorem file?_erase (disk : Disk) {gone : Place} (below : gone ≠ []) :
    (disk.erase gone).file? = Function.update disk.file? gone none := by
  funext place
  unfold file?
  rw [get?_erase disk below]
  by_cases same : place = gone
  · rw [same, if_pos rfl, Function.update_self]
  · rw [if_neg same, Function.update_of_ne same]

theorem file?_eq_some_iff (disk : Disk) (place : Place) (bytes : ByteArray) :
    disk.file? place = some bytes ↔ disk.get? place = some (.file bytes) := by
  unfold file?
  split
  · next found => simp [found]
  · next other =>
      simp only [reduceCtorEq, false_iff]
      exact other bytes

theorem grows_put (disk : Disk) {new : Place} (below : new ≠ []) (node : Node)
    (free : disk.get? new ≠ some .directory) : Grows disk (disk.put new node) := by
  refine ⟨rfl, fun place known => ?_⟩
  have other : place ≠ new := by
    intro same
    exact free (same ▸ known)
  rw [get?_put disk below, if_neg other, known]

theorem extends_put (disk : Disk) {new : Place} (below : new ≠ []) (bytes : ByteArray)
    (free : disk.get? new ≠ some .directory) : Extends [] disk (disk.put new (.file bytes)) := by
  refine ⟨grows_put disk below _ free, fun place known => .inl ?_⟩
  rw [get?_put disk below] at known
  split at known
  · cases known
  · exact known

theorem extends_erase (disk : Disk) {gone : Place} (below : gone ≠ [])
    (free : disk.get? gone ≠ some .directory) : Extends [] disk (disk.erase gone) := by
  refine ⟨⟨rfl, fun place known => ?_⟩, fun place known => .inl ?_⟩
  · have other : place ≠ gone := by
      intro same
      exact free (same ▸ known)
    rw [get?_erase disk below, if_neg other, known]
  · rw [get?_erase disk below] at known
    split at known
    · cases known
    · exact known

/-- A directory that is made where nothing was. -/
theorem prepares_put (disk : Disk) {new : Place} (below : new ≠ [])
    (free : disk.get? new = none) : Prepares [new] disk (disk.put new .directory) := by
  refine ⟨⟨grows_put disk below _ (by simp [free]), fun place known => ?_⟩, funext fun place => ?_⟩
  · rw [get?_put disk below] at known
    split at known
    · next same => exact .inr (List.mem_singleton.mpr same)
    · exact .inl known
  · unfold file?
    rw [get?_put disk below]
    by_cases same : place = new
    · rw [if_pos same, same, free]
    · rw [if_neg same]

theorem ne_directory_of_file? {disk : Disk} {place : Place} {bytes : ByteArray}
    (held : disk.file? place = some bytes) : disk.get? place ≠ some .directory := by
  rw [(file?_eq_some_iff _ _ _).mp held]
  exact fun same => nomatch same

theorem extends_move (disk : Disk) {old new : Place} (oldBelow : old ≠ []) (newBelow : new ≠ [])
    (bytes : ByteArray) (oldFree : disk.get? old ≠ some .directory)
    (newFree : disk.get? new ≠ some .directory) :
    Extends [] disk ((disk.erase old).put new (.file bytes)) := by
  apply (extends_erase disk oldBelow oldFree).trans
  apply extends_put _ newBelow
  rw [get?_erase disk oldBelow]
  split
  · exact fun none => nomatch none
  · exact newFree

/-! Nodes, put together from what is known of files and of directories. -/

namespace Extends

variable {places : List Place} {before after : Disk} {place : Place}

theorem get?_cases (extended : Extends places before after)
    (same : after.file? place = before.file? place) :
    after.get? place = before.get? place ∨
      before.get? place = none ∧ after.get? place = some .directory ∧ place ∈ places := by
  cases now : after.get? place with
  | none =>
    left
    cases old : before.get? place with
    | none => rfl
    | some node =>
      cases node with
      | file bytes =>
        rw [(file?_eq_some_iff _ _ _).mpr old] at same
        rw [(file?_eq_some_iff _ _ _).mp same] at now
        cases now
      | directory =>
        rw [extended.grows.directories place old] at now
        cases now
  | some node =>
    cases node with
    | file bytes =>
      left
      rw [(file?_eq_some_iff _ _ _).mpr now] at same
      exact ((file?_eq_some_iff _ _ _).mp same.symm).symm
    | directory =>
      rcases extended.only place now with known | new
      · exact .inl known.symm
      · cases old : before.get? place with
        | none => exact .inr ⟨rfl, rfl, new⟩
        | some node =>
          cases node with
          | file bytes =>
            rw [(file?_eq_some_iff _ _ _).mpr old] at same
            rw [(file?_eq_some_iff _ _ _).mp same] at now
            cases now
          | directory => exact .inl rfl

theorem get?_eq (extended : Extends places before after) (outside : place ∉ places)
    (same : after.file? place = before.file? place) : after.get? place = before.get? place := by
  rcases extended.get?_cases same with unchanged | ⟨_, _, inside⟩
  · exact unchanged
  · exact absurd inside outside

theorem get?_eq_or_none (extended : Extends places before after) (outside : place ∉ places)
    (nothing : after.file? place = none) :
    after.get? place = before.get? place ∨ after.get? place = none := by
  cases now : after.get? place with
  | none => exact .inr rfl
  | some node =>
    cases node with
    | file bytes =>
      rw [(file?_eq_some_iff _ _ _).mpr now] at nothing
      cases nothing
    | directory => exact .inl ((extended.only place now).resolve_right outside).symm

theorem get?_eq_none (extended : Extends places before after) (outside : place ∉ places)
    (free : before.get? place ≠ some .directory) (nothing : after.file? place = none) :
    after.get? place = none := by
  rcases extended.get?_eq_or_none outside nothing with same | none
  · cases old : before.get? place with
    | none => rw [same, old]
    | some node =>
      cases node with
      | directory => exact absurd old free
      | file bytes =>
        rw [(file?_eq_some_iff _ _ _).mpr (same.trans old)] at nothing
        cases nothing
  · exact none

end Extends

variable {disk after : Disk} {path : Path}

theorem reaches_of_target {directory : Place} {name : String} {node : Option Node}
    (found : disk.target path = .ok ⟨directory, some name, false⟩)
    (child : disk.child? directory name = .ok node) :
    disk.Reaches path (disk.place path) ∧ disk.place path = directory ++ [name] ∧
      disk.get? (disk.place path) = node := by
  obtain ⟨short, held⟩ := (child?_eq_ok_iff _ _ _ _).mp child
  have reaches : disk.Reaches path (directory ++ [name]) := ⟨directory, name, found, short, rfl⟩
  rw [← reaches.place_eq]
  exact ⟨reaches, rfl, held⟩

/-- A path that leads to a place is read there. -/
theorem Reaches.readFile_eq_ok_iff {place : Place} (reaches : disk.Reaches path place)
    (bytes : ByteArray) : disk.readFile path = .ok bytes ↔ disk.file? place = some bytes := by
  obtain ⟨directory, name, found, short, rfl⟩ := reaches
  have child := (child?_eq_ok_iff disk directory name _).mpr ⟨short, rfl⟩
  rw [file?_eq_some_iff, readFile, node, found]
  change (disk.child? directory name >>= _) >>= _ = _ ↔ _
  rw [child]
  cases disk.get? (directory ++ [name]) with
  | none => simp [bind, Except.bind]
  | some node =>
    cases node with
    | file content => simp [bind, Except.bind, pure, Except.pure]
    | directory => simp [bind, Except.bind, pure, Except.pure]

theorem Reaches.of_readFile {bytes : ByteArray} (read : disk.readFile path = .ok bytes) :
    disk.Reaches path (disk.place path) := by
  obtain ⟨node, found, read⟩ := (bind_eq_ok_iff _ _ _).mp read
  cases node with
  | directory => cases read
  | file content =>
    obtain ⟨⟨directory, name, slash⟩, found, held⟩ := (bind_eq_ok_iff _ _ _).mp found
    cases name with
    | none => cases held
    | some name =>
      obtain ⟨child, known, held⟩ := (bind_eq_ok_iff _ _ _).mp held
      cases child with
      | none => cases held
      | some child =>
        cases child with
        | directory => cases held
        | file other =>
          cases slash with
          | true => cases held
          | false => exact (reaches_of_target found known).1

/-! When each operation succeeds, and what it then changes. -/

theorem makeDirectory_eq_ok (done : disk.makeDirectory path = .ok after) :
    Prepares [disk.place path] disk after := by
  obtain ⟨⟨directory, name, slash⟩, found, done⟩ := (bind_eq_ok_iff _ _ _).mp done
  cases name with
  | none => cases done
  | some name =>
    obtain ⟨node, child, done⟩ := (bind_eq_ok_iff _ _ _).mp done
    cases node with
    | some node => cases done
    | none =>
      cases done
      rw [place_of_target found]
      exact prepares_put disk (by simp) ((child?_eq_ok_iff _ _ _ _).mp child).2

theorem writeFile_eq_ok_iff (bytes : ByteArray) :
    disk.writeFile path bytes = .ok after ↔
      disk.Reaches path (disk.place path) ∧ disk.get? (disk.place path) ≠ some .directory ∧
        after = disk.put (disk.place path) (.file bytes) := by
  apply Iff.intro
  · intro done
    obtain ⟨⟨directory, name, slash⟩, found, done⟩ := (bind_eq_ok_iff _ _ _).mp done
    cases name with
    | none => cases done
    | some name =>
      cases slash with
      | true => cases done
      | false =>
        obtain ⟨node, child, done⟩ := (bind_eq_ok_iff _ _ _).mp done
        obtain ⟨reaches, same, held⟩ := reaches_of_target found child
        dsimp only at done
        split at done
        · cases done
        · next unlike =>
            cases done
            exact ⟨reaches, fun known => unlike (held.symm.trans known), by rw [same]⟩
  · intro given
    obtain ⟨⟨directory, name, found, short, same⟩, free, rfl⟩ := given
    rw [same] at free ⊢
    have child := (child?_eq_ok_iff disk directory name _).mpr ⟨short, rfl⟩
    rw [writeFile, found]
    change (disk.child? directory name >>= _) = _
    rw [child]
    cases held : disk.get? (directory ++ [name]) with
    | none => rfl
    | some node =>
      cases node with
      | file content => rfl
      | directory => exact absurd held free

theorem writeFile_eq_ok {bytes : ByteArray} (done : disk.writeFile path bytes = .ok after) :
    Extends [] disk after ∧
      after.file? = Function.update disk.file? (disk.place path) (some bytes) := by
  obtain ⟨reaches, free, rfl⟩ := (writeFile_eq_ok_iff bytes).mp done
  exact ⟨extends_put disk reaches.ne_nil bytes free, file?_put disk reaches.ne_nil bytes⟩

theorem removeFile_eq_ok_iff :
    disk.removeFile path = .ok after ↔
      disk.Reaches path (disk.place path) ∧ disk.file? (disk.place path) ≠ none ∧
        after = disk.erase (disk.place path) := by
  apply Iff.intro
  · intro done
    obtain ⟨⟨directory, name, slash⟩, found, done⟩ := (bind_eq_ok_iff _ _ _).mp done
    cases name with
    | none => cases done
    | some name =>
      obtain ⟨node, child, done⟩ := (bind_eq_ok_iff _ _ _).mp done
      cases node with
      | none => cases done
      | some node =>
        cases node with
        | directory => cases done
        | file bytes =>
          cases slash with
          | true => cases done
          | false =>
            cases done
            obtain ⟨reaches, same, held⟩ := reaches_of_target found child
            refine ⟨reaches, ?_, by rw [same]⟩
            rw [(file?_eq_some_iff _ _ _).mpr held]
            exact Option.some_ne_none bytes
  · intro given
    obtain ⟨⟨directory, name, found, short, same⟩, held, rfl⟩ := given
    rw [same] at held ⊢
    obtain ⟨bytes, held⟩ := Option.ne_none_iff_exists'.mp held
    have child := (child?_eq_ok_iff disk directory name _).mpr
      ⟨short, (file?_eq_some_iff _ _ _).mp held⟩
    rw [removeFile, found]
    change (disk.child? directory name >>= _) = _
    rw [child]
    rfl

theorem removeFile_eq_ok (done : disk.removeFile path = .ok after) :
    Extends [] disk after ∧ after.file? = Function.update disk.file? (disk.place path) none := by
  obtain ⟨reaches, held, rfl⟩ := removeFile_eq_ok_iff.mp done
  obtain ⟨bytes, held⟩ := Option.ne_none_iff_exists'.mp held
  exact ⟨extends_erase disk reaches.ne_nil (ne_directory_of_file? held),
    file?_erase disk reaches.ne_nil⟩

/-- A rename finds a file at its source and no directory at its target. -/
theorem rename_parts {source : Path} (done : disk.rename source path = .ok after) :
    ∃ oldDirectory oldName newDirectory newName bytes replaced,
      disk.target source = .ok ⟨oldDirectory, some oldName, false⟩ ∧
      disk.target path = .ok ⟨newDirectory, some newName, false⟩ ∧
      disk.child? oldDirectory oldName = .ok (some (.file bytes)) ∧
      disk.child? newDirectory newName = .ok replaced ∧ replaced ≠ some .directory ∧
      after = (disk.erase (oldDirectory ++ [oldName])).put (newDirectory ++ [newName])
        (.file bytes) := by
  rw [rename, bind_eq_ok_iff] at done
  obtain ⟨⟨oldDirectory, oldName, oldSlash⟩, oldFound, done⟩ := done
  rw [bind_eq_ok_iff] at done
  obtain ⟨⟨newDirectory, newName, newSlash⟩, newFound, done⟩ := done
  cases oldName with
  | none => cases done
  | some oldName =>
    cases newName with
    | none => cases done
    | some newName =>
      dsimp only at done
      rw [bind_eq_ok_iff] at done
      obtain ⟨moved, oldChild, done⟩ := done
      cases moved with
      | none => cases done
      | some moved =>
        dsimp only at done
        rw [bind_eq_ok_iff] at done
        obtain ⟨replaced, newChild, done⟩ := done
        cases moved with
        | directory => cases done
        | file bytes =>
          dsimp only at done
          split at done
          · cases done
          · next plain =>
              obtain ⟨rfl, rfl⟩ : oldSlash = false ∧ newSlash = false := by simpa using plain
              split at done
              · cases done
              · next unlike =>
                  cases done
                  exact ⟨oldDirectory, oldName, newDirectory, newName, bytes, replaced, oldFound,
                    newFound, oldChild, newChild, unlike, rfl⟩

theorem rename_eq_ok_iff {source : Path} :
    disk.rename source path = .ok after ↔
      disk.Reaches source (disk.place source) ∧ disk.Reaches path (disk.place path) ∧
        disk.get? (disk.place path) ≠ some .directory ∧
        ∃ bytes, disk.file? (disk.place source) = some bytes ∧
          after = (disk.erase (disk.place source)).put (disk.place path) (.file bytes) := by
  apply Iff.intro
  · intro done
    obtain ⟨oldDirectory, oldName, newDirectory, newName, bytes, replaced, oldFound, newFound,
      oldChild, newChild, unlike, rfl⟩ := rename_parts done
    obtain ⟨oldReaches, oldSame, oldHeld⟩ := reaches_of_target oldFound oldChild
    obtain ⟨newReaches, newSame, newHeld⟩ := reaches_of_target newFound newChild
    exact ⟨oldReaches, newReaches, by rwa [newHeld], bytes, (file?_eq_some_iff _ _ _).mpr oldHeld,
      by rw [oldSame, newSame]⟩
  · intro given
    obtain ⟨⟨oldDirectory, oldName, oldFound, oldShort, oldSame⟩,
      ⟨newDirectory, newName, newFound, newShort, newSame⟩, free, bytes, held, rfl⟩ := given
    rw [oldSame] at held ⊢
    rw [newSame] at free ⊢
    have oldChild := (child?_eq_ok_iff disk oldDirectory oldName _).mpr
      ⟨oldShort, (file?_eq_some_iff _ _ _).mp held⟩
    have newChild := (child?_eq_ok_iff disk newDirectory newName _).mpr ⟨newShort, rfl⟩
    rw [rename, oldFound, newFound]
    change (disk.child? oldDirectory oldName >>= _) = _
    rw [oldChild]
    change (disk.child? newDirectory newName >>= _) = _
    rw [newChild]
    cases replaced : disk.get? (newDirectory ++ [newName]) with
    | none => rfl
    | some node =>
      cases node with
      | file content => rfl
      | directory => exact absurd replaced free

/-- A rename moves the content of a file, and the path of the target can be read afterwards. -/
theorem rename_eq_ok {source : Path} (done : disk.rename source path = .ok after) :
    Extends [] disk after ∧ after.Reaches path (disk.place path) ∧
      ∃ bytes, disk.file? (disk.place source) = some bytes ∧
        after.file? = Function.update (Function.update disk.file? (disk.place source) none)
          (disk.place path) (some bytes) := by
  obtain ⟨oldReaches, newReaches, free, bytes, held, rfl⟩ := rename_eq_ok_iff.mp done
  have extended := extends_move disk oldReaches.ne_nil newReaches.ne_nil bytes
    (ne_directory_of_file? held) free
  refine ⟨extended, newReaches.of_grows extended.grows, bytes, held, ?_⟩
  rw [file?_put _ newReaches.ne_nil, file?_erase _ oldReaches.ne_nil]

end DecoderTables.Disk
