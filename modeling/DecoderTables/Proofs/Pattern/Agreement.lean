import DecoderTables.Pattern.Basic
import DecoderTables.Proofs.Pattern.Mask
import Mathlib.Data.List.Enum

/-!
A pattern is read in two ways: character by character, and through the masks and values of its
runs. Both accept the same encodings. What the scan finds is said once, as a relation between any
rest of a pattern text and its runs; what holds of the runs follows by induction on it.
-/

namespace DecoderTables

theorem validate_eq_ok_iff (text : String) :
    validate text = .ok () ↔
      text.toList.length = halfWidth ∧ ∀ c ∈ text.toList, isPatternChar c = true := by
  unfold validate
  by_cases length : text.toList.length = halfWidth
  · simp only [length, ne_eq, not_true_eq_false, ↓reduceIte, true_and]
    cases found : text.toList.zipIdx.find? (!isPatternChar ·.1) with
    | some fault =>
      obtain ⟨c, index⟩ := fault
      have wrong : isPatternChar c = false := by simpa using List.find?_some found
      have member := List.fst_mem_of_mem_zipIdx (List.mem_of_find?_eq_some found)
      simp only [reduceCtorEq, false_iff]
      intro right
      rw [right c member] at wrong
      cases wrong
    | none =>
      simp only [true_iff]
      rw [List.find?_eq_none, List.forall_mem_zipIdx'] at found
      intro c member
      obtain ⟨index, bound, rfl⟩ := List.mem_iff_getElem.mp member
      simpa using found index bound
  · simp [length]

theorem isDigit_of_isFixed {c : Char} (known : isPatternChar c = true) (fixed : isFixed c = true) :
    c = '0' ∨ c = '1' := by
  simp only [isPatternChar, isFixed, Bool.or_eq_true, decide_eq_true_eq, bne_iff_ne] at known fixed
  exact known.resolve_right fixed

/-- The characters of a text, the first of them at the place `start`, agree with the bits of a
half-word. -/
def AgreesFrom (start : Nat) (text : List Char) (raw : HalfWord) : Prop :=
  ∀ item ∈ text.zipIdx start,
    HalfPattern.agrees item.1 (raw.getLsbD (halfWidth - 1 - item.2)) = true

theorem HalfPattern.accepts_iff_agreesFrom (pattern : HalfPattern) (raw : HalfWord) :
    pattern.accepts raw = true ↔ AgreesFrom 0 pattern.text.toList raw :=
  List.all_eq_true

theorem agreesFrom_nil (start : Nat) (raw : HalfWord) : AgreesFrom start [] raw := by
  simp [AgreesFrom]

theorem agreesFrom_append (start : Nat) (left right : List Char) (raw : HalfWord) :
    AgreesFrom start (left ++ right) raw ↔
      AgreesFrom start left raw ∧ AgreesFrom (start + left.length) right raw := by
  unfold AgreesFrom
  rw [List.zipIdx_append]
  exact List.forall_mem_append

theorem agreesFrom_wildcard_cons (start : Nat) (text : List Char) (raw : HalfWord) :
    AgreesFrom start (wildcard :: text) raw ↔ AgreesFrom (start + 1) text raw := by
  simp [AgreesFrom, HalfPattern.agrees, wildcard]

theorem agrees_binaryDigit (value bit : Bool) :
    HalfPattern.agrees (binaryDigit value) bit = true ↔ bit = value := by
  cases value <;> cases bit <;> decide

/-- The digits of a run stand in descending order of places. -/
theorem agreesFrom_binaryDigits (start width value : Nat) (raw : HalfWord)
    (within : start + width ≤ 16) :
    AgreesFrom start (binaryDigits width value) raw ↔
      ∀ place < width, raw.getLsbD (16 - (start + width) + place) = value.testBit place := by
  unfold AgreesFrom halfWidth
  rw [List.forall_mem_zipIdx]
  simp only [getElem_binaryDigits, agrees_binaryDigit, length_binaryDigits]
  apply Iff.intro
  · intro same place bound
    have here := same (width - 1 - place) (by omega)
    rw [show 16 - 1 - (start + (width - 1 - place)) = 16 - (start + width) + place by omega,
      show width - 1 - (width - 1 - place) = place by omega] at here
    exact here
  · intro same index bound
    have here := same (width - 1 - index) (by omega)
    rw [show 16 - (start + width) + (width - 1 - index) = 16 - 1 - (start + index) by omega] at here
    exact here

theorem Run.Fits.accepts_iff_agreesFrom {run : Run} {width value : Nat}
    (fits : run.Fits width value) (half : Half) (lo hi : HalfWord) :
    (run.predicate half).accepts lo hi = true ↔
      AgreesFrom run.start (binaryDigits width value) (half.select lo hi) := by
  rw [fits.accepts_iff, agreesFrom_binaryDigits _ _ _ _ fits.within, fits.low_eq]

/-- One step of the scan: the digits up to the next wildcard are a run. -/
theorem exists_fits (start : Nat) (fixed : List Char) (only : IsDigits fixed)
    (nonempty : fixed ≠ []) (within : start + fixed.length ≤ 16) :
    ∃ value, (⟨start, String.ofList fixed⟩ : Run).Fits fixed.length value ∧
      fixed = binaryDigits fixed.length value := by
  obtain ⟨value, bound, same⟩ := exists_eq_binaryDigits fixed only
  have positive := List.length_pos_iff.mpr nonempty
  exact ⟨value, ⟨congrArg String.ofList same, bound, positive, within⟩, same⟩

theorem isDigits_cons_takeWhile {c : Char} {text : List Char} (fixed : isFixed c = true)
    (known : ∀ other ∈ c :: text, isPatternChar other = true) :
    IsDigits (c :: text.takeWhile isFixed) := by
  intro other member
  rcases List.mem_cons.mp member with rfl | later
  · exact isDigit_of_isFixed (known other List.mem_cons_self) fixed
  · have inside := (List.takeWhile_prefix isFixed).subset later
    exact isDigit_of_isFixed (known other (List.mem_cons_of_mem _ inside))
      (List.all_eq_true.mp List.all_takeWhile _ later)

/-- The text from the character `start` on, cut into digits and wildcards, and the runs of its
digits. -/
inductive Scans : Nat → List Char → List Run → Prop
  | nil (start : Nat) : Scans start [] []
  | digits {run : Run} {width value : Nat} {rest : List Char} {later : List Run}
      (fits : run.Fits width value) (scans : Scans (run.start + width) rest later) :
      Scans run.start (binaryDigits width value ++ rest) (run :: later)
  | wild {start : Nat} {rest : List Char} {later : List Run} (scans : Scans (start + 1) rest later) :
      Scans start (wildcard :: rest) later

theorem scans_runsFrom (start : Nat) (text : List Char)
    (known : ∀ c ∈ text, isPatternChar c = true) (within : start + text.length ≤ 16) :
    Scans start text (runsFrom start text) := by
  -- The scan drops a whole run at a time, hence its own induction and not the one on the text.
  fun_induction runsFrom start text with
  | case1 start => exact .nil start
  | case2 start c text isDigit fixed ih =>
    have only : IsDigits fixed := isDigits_cons_takeWhile isDigit known
    have split : c :: text = fixed ++ text.dropWhile isFixed := by
      rw [List.cons_append, List.takeWhile_append_dropWhile]
    rw [split] at known within ⊢
    rw [List.length_append] at within
    obtain ⟨value, fits, same⟩ := exists_fits start fixed only (List.cons_ne_nil _ _) (by omega)
    rw [utf8Length_isDigits fixed only] at ih ⊢
    have rest := ih (fun other member => known other (List.mem_append_right _ member)) (by omega)
    have scans := Scans.digits fits rest
    rw [← same] at scans
    exact scans
  | case3 start c text notFixed ih =>
    obtain rfl : c = wildcard := by simpa [isFixed] using notFixed
    rw [List.length_cons] at within
    exact .wild (ih (fun other member => known other (List.mem_cons_of_mem _ member)) (by omega))

theorem HalfPattern.scans (pattern : HalfPattern) :
    Scans 0 pattern.text.toList (runs pattern.text) := by
  obtain ⟨length, known⟩ := (validate_eq_ok_iff pattern.text).mp pattern.valid
  exact scans_runsFrom 0 pattern.text.toList known (by rw [length]; decide)

namespace Scans

variable {start : Nat} {text : List Char} {found : List Run}

theorem accepts_iff (scans : Scans start text found) (half : Half) (lo hi : HalfWord) :
    (∀ run ∈ found, (run.predicate half).accepts lo hi = true) ↔
      AgreesFrom start text (half.select lo hi) := by
  induction scans with
  | nil start => simp [agreesFrom_nil]
  | digits fits _ ih =>
    rw [List.forall_mem_cons, ih, fits.accepts_iff_agreesFrom, agreesFrom_append,
      length_binaryDigits]
  | wild _ ih => rw [ih, agreesFrom_wildcard_cons]

/-- The runs of a pattern text are digits that lie within the half-word. -/
theorem exists_fits (scans : Scans start text found) :
    ∀ run ∈ found, ∃ width value, run.Fits width value := by
  induction scans with
  | nil start => simp
  | digits fits _ ih => exact List.forall_mem_cons.mpr ⟨⟨_, _, fits⟩, ih⟩
  | wild _ ih => exact ih

end Scans

theorem HalfPattern.exists_fits (pattern : HalfPattern) :
    ∀ run ∈ runs pattern.text, ∃ width value, run.Fits width value :=
  pattern.scans.exists_fits

theorem HalfPattern.accepts_iff_predicates (pattern : HalfPattern) (half : Half)
    (lo hi : HalfWord) :
    pattern.accepts (half.select lo hi) = true ↔
      ∀ predicate ∈ pattern.predicates half, predicate.accepts lo hi = true := by
  rw [pattern.accepts_iff_agreesFrom, ← pattern.scans.accepts_iff half lo hi,
    HalfPattern.predicates, List.forall_mem_map]

/-- A pattern accepts an encoding when all its predicates do. -/
theorem BitPattern.accepts_iff_forall_predicates (pattern : BitPattern) (lo hi : HalfWord) :
    pattern.accepts lo hi = true ↔
      ∀ predicate ∈ pattern.predicates, predicate.accepts lo hi = true := by
  have low := pattern.lo.accepts_iff_predicates .lo lo hi
  unfold accepts predicates
  rw [Bool.and_eq_true, List.forall_mem_append, ← low]
  cases wide : pattern.hi with
  | none => simp [Half.select]
  | some high =>
    rw [← high.accepts_iff_predicates .hi lo hi]
    rfl

end DecoderTables
