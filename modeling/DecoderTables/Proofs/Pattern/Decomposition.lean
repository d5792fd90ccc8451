import DecoderTables.Proofs.Pattern.Runs
import DecoderTables.Proofs.Pattern.Word

/-!
A pattern and its predicates say the same, place by place. The masks of a half cover its digits and
nothing else, the values its ones, and the literals put back into wildcards give the pattern text.
-/

namespace DecoderTables
open Text

/-! Literals put back. -/

/-- The digits that a check asks for, the highest bit first. -/
def Check.literal : Check → List Char
  | .bit _ value => [binaryDigit value]
  | .range _ _ literal => literal.toList

/-- The text with the literal of a check at the place of its bits. -/
def Check.writeInto (check : Check) (text : List Char) : List Char :=
  text.take (15 - check.high) ++ check.literal ++ text.drop (16 - check.low)

def restore (predicates : List Predicate) : List Char :=
  predicates.foldl (fun text predicate => predicate.check.writeInto text)
    (List.replicate 16 wildcard)

namespace Run.Fits

variable {run : Run} {width value : Nat}

theorem check_literal (fits : run.Fits width value) (half : Half) :
    (run.predicate half).check.literal = binaryDigits width value := by
  rw [Run.predicate]
  split
  · next one =>
      obtain rfl : width = 1 := fits.width_eq.symm.trans one
      have bit := fits.bit_eq
      have bound := fits.bound
      rw [Check.literal]
      rcases (by omega : value = 0 ∨ value = 1) with rfl | rfl
      · rw [Bool.toNat_eq_zero.mp bit]
        rfl
      · rw [Bool.toNat_eq_one.mp bit]
        rfl
  · rw [Check.literal, fits.literal, String.toList_ofList]

theorem writeInto_eq (fits : run.Fits width value) (half : Half) {front middle : List Char}
    (start : front.length = run.start) (size : middle.length = width) (rest : List Char) :
    (run.predicate half).check.writeInto (front ++ (middle ++ rest)) =
      front ++ binaryDigits width value ++ rest := by
  have positive := fits.positive
  have within := fits.within
  have high := fits.high_eq
  have low := fits.low_eq
  have first : 15 - (run.predicate half).check.high = front.length := by
    rw [check_high]
    omega
  have last : 16 - (run.predicate half).check.low = (front ++ middle).length := by
    rw [fits.check_low, List.length_append]
    omega
  rw [Check.writeInto, first, last, fits.check_literal, List.take_left, ← List.append_assoc,
    List.drop_left]

end Run.Fits

/-- Each run replaces the wildcards at its place, whatever the runs before it have left in front. -/
theorem Scans.foldl_writeInto {start : Nat} {text : List Char} {found : List Run}
    (scans : Scans start text found) (half : Half) (front : List Char)
    (placed : front.length = start) :
    (found.map (·.predicate half)).foldl
        (fun text predicate => predicate.check.writeInto text)
        (front ++ List.replicate text.length wildcard) = front ++ text := by
  induction scans generalizing front with
  | nil start => rfl
  | @digits run width value rest later fits _ ih =>
    have size := length_binaryDigits width value
    have written := ih (front ++ binaryDigits width value)
      (by rw [List.length_append, placed, size])
    rw [List.length_append, ← List.replicate_append_replicate, List.map_cons, List.foldl_cons,
      fits.writeInto_eq half placed (by rw [List.length_replicate, size]), written,
      List.append_assoc]
  | wild _ ih =>
    have written := ih (front ++ [wildcard])
      (by rw [List.length_append, placed, List.length_singleton])
    rw [List.append_assoc, List.append_assoc] at written
    rw [List.length_cons, List.replicate_succ]
    exact written

theorem HalfPattern.restore_predicates (pattern : HalfPattern) (half : Half) :
    restore (pattern.predicates half) = pattern.text.toList := by
  obtain ⟨length, _⟩ := (validate_eq_ok_iff pattern.text).mp pattern.valid
  have written := pattern.scans.foldl_writeInto half [] rfl
  rw [length] at written
  exact written

/-! Bits and characters. -/

section Bits

variable {shown : Char → Prop}

/-- A character with the property stands for the bit `place`, in the part of a pattern text that
begins with the character `start`. -/
def ShowsAt (shown : Char → Prop) (place start : Nat) (text : List Char) : Prop :=
  ∃ item ∈ text.zipIdx start, shown item.1 ∧ item.2 + place = 15

theorem showsAt_nil (place start : Nat) : ¬ShowsAt shown place start [] := by
  simp [ShowsAt]

theorem showsAt_append (place start : Nat) (left right : List Char) :
    ShowsAt shown place start (left ++ right) ↔
      ShowsAt shown place start left ∨ ShowsAt shown place (start + left.length) right := by
  simp only [ShowsAt, List.zipIdx_append, List.mem_append, or_and_right, exists_or]

theorem showsAt_cons_of_not (place start : Nat) {c : Char} (hidden : ¬shown c) (text : List Char) :
    ShowsAt shown place start (c :: text) ↔ ShowsAt shown place (start + 1) text := by
  simp [ShowsAt, hidden]

theorem showsAt_zero_iff {place : Nat} (inside : place < 16) (text : List Char) :
    ShowsAt shown place 0 text ↔ ∃ c, text[15 - place]? = some c ∧ shown c := by
  apply Iff.intro
  · intro given
    obtain ⟨⟨c, index⟩, member, holds, sum⟩ := given
    obtain rfl : index = 15 - place := by
      dsimp only at sum
      omega
    exact ⟨c, List.mem_zipIdx_iff_getElem?.mp member, holds⟩
  · intro given
    obtain ⟨c, found, holds⟩ := given
    refine ⟨(c, 15 - place), List.mem_zipIdx_iff_getElem?.mpr found, holds, ?_⟩
    dsimp only
    omega

/-- The digits of a run stand in descending order of places. -/
theorem showsAt_binaryDigits (place start width value : Nat) (within : start + width ≤ 16) :
    ShowsAt shown place start (binaryDigits width value) ↔
      16 - (start + width) ≤ place ∧ place < 16 - start ∧
        shown (binaryDigit (value.testBit (place - (16 - (start + width))))) := by
  apply Iff.intro
  · intro given
    obtain ⟨⟨c, index⟩, member, holds, sum⟩ := given
    obtain ⟨above, found⟩ := List.mk_mem_zipIdx_iff_le_and_getElem?_sub.mp member
    obtain ⟨bound, rfl⟩ := List.getElem?_eq_some_iff.mp found
    rw [getElem_binaryDigits] at holds
    rw [length_binaryDigits] at bound
    dsimp only at sum holds
    rw [show width - 1 - (index - start) = place - (16 - (start + width)) by omega] at holds
    exact ⟨by omega, by omega, holds⟩
  · intro given
    obtain ⟨above, below, holds⟩ := given
    have bound : 15 - place - start < (binaryDigits width value).length := by
      rw [length_binaryDigits]
      omega
    refine ⟨(_, 15 - place), List.mk_mem_zipIdx_iff_le_and_getElem?_sub.mpr
      ⟨by omega, List.getElem?_eq_getElem bound⟩, ?_, ?_⟩
    · rw [getElem_binaryDigits,
        show width - 1 - (15 - place - start) = place - (16 - (start + width)) by omega]
      exact holds
    · dsimp only
      omega

end Bits

def IsDigit (c : Char) : Prop :=
  c = '0' ∨ c = '1'

namespace Run.Fits

variable {run : Run} {width value : Nat}

theorem getLsbD_mask_iff_showsAt (fits : run.Fits width value) (half : Half) (place : Nat) :
    (run.predicate half).check.mask.getLsbD place = true ↔
      ShowsAt IsDigit place run.start (binaryDigits width value) := by
  have within := fits.within
  have digit : ∀ bit, IsDigit (binaryDigit bit) := by
    intro bit
    cases bit
    · exact .inl rfl
    · exact .inr rfl
  rw [fits.mask_eq, getLsbD_field, showsAt_binaryDigits _ _ _ _ within, ← fits.low_eq,
    Nat.testBit_two_pow_sub_one]
  simp only [Bool.and_eq_true, decide_eq_true_eq, digit, and_true]
  have low := fits.low_eq
  omega

theorem getLsbD_value_iff_showsAt (fits : run.Fits width value) (half : Half) (place : Nat) :
    (run.predicate half).check.value.getLsbD place = true ↔
      ShowsAt (· = '1') place run.start (binaryDigits width value) := by
  have within := fits.within
  have low := fits.low_eq
  have one : ∀ bit, binaryDigit bit = '1' ↔ bit = true := by decide
  rw [fits.value_eq, getLsbD_field, showsAt_binaryDigits _ _ _ _ within, ← low, one]
  simp only [Bool.and_eq_true, decide_eq_true_eq]
  apply Iff.intro
  · intro given
    obtain ⟨⟨⟨_, above⟩, below⟩, set⟩ := given
    exact ⟨above, by omega, set⟩
  · intro given
    obtain ⟨above, below, set⟩ := given
    exact ⟨⟨⟨by omega, above⟩, by omega⟩, set⟩

end Run.Fits

/-- What holds of the bits of each run and of its digits holds of a whole text. -/
theorem Scans.exists_getLsbD_iff_showsAt {bits : Check → HalfWord} {shown : Char → Prop}
    (hidden : ¬shown wildcard) (half : Half) (place : Nat)
    (ofRun : ∀ {run : Run} {width value : Nat}, run.Fits width value →
      ((bits (run.predicate half).check).getLsbD place = true ↔
        ShowsAt shown place run.start (binaryDigits width value)))
    {start : Nat} {text : List Char} {found : List Run} (scans : Scans start text found) :
    (∃ run ∈ found, (bits (run.predicate half).check).getLsbD place = true) ↔
      ShowsAt shown place start text := by
  induction scans with
  | nil start => simp [showsAt_nil]
  | digits fits _ ih =>
    rw [List.exists_mem_cons_iff, ih, ofRun fits, showsAt_append, length_binaryDigits]
  | wild _ ih => rw [ih, showsAt_cons_of_not _ _ hidden]

/-! A half and its predicates. -/

/-- All bits that are set in one of the words. -/
def union (words : List HalfWord) : HalfWord :=
  words.foldr (· ||| ·) 0

theorem getLsbD_union_iff (words : List HalfWord) (place : Nat) :
    (union words).getLsbD place = true ↔ ∃ word ∈ words, word.getLsbD place = true := by
  induction words with
  | nil => simp [union]
  | cons word words ih =>
    rw [union, List.foldr_cons, BitVec.getLsbD_or, Bool.or_eq_true, ← union, ih,
      List.exists_mem_cons_iff]

/-- The predicates are the parts of the pattern: they look at its digits, each at its own, from left
to right with a wildcard between two of them, and together they give the pattern back. -/
structure HalfPattern.DecomposesInto (pattern : HalfPattern) (predicates : List Predicate) :
    Prop where
  disjoint : predicates.Pairwise fun first second => first.check.mask &&& second.check.mask = 0
  masks : ∀ place < 16, (union (predicates.map (·.check.mask))).getLsbD place = true ↔
    pattern.text.toList[15 - place]? = some '0' ∨ pattern.text.toList[15 - place]? = some '1'
  within : ∀ predicate ∈ predicates,
    predicate.check.value &&& predicate.check.mask = predicate.check.value
  values : ∀ place < 16, (union (predicates.map (·.check.value))).getLsbD place = true ↔
    pattern.text.toList[15 - place]? = some '1'
  descending : predicates.Pairwise fun first second => second.check.high + 2 ≤ first.check.low
  full : ∀ predicate ∈ predicates,
    predicate.check.isFull = true ↔ wildcard ∉ pattern.text.toList
  restored : restore predicates = pattern.text.toList
  words : ∀ predicate ∈ predicates,
    predicate.check.words? = some (predicate.check.mask, predicate.check.value)

namespace HalfPattern

variable (pattern : HalfPattern) (half : Half)

theorem getLsbD_union_predicates_iff {bits : Check → HalfWord} {shown : Char → Prop}
    (hidden : ¬shown wildcard) {place : Nat} (inside : place < 16)
    (ofRun : ∀ {run : Run} {width value : Nat}, run.Fits width value →
      ((bits (run.predicate half).check).getLsbD place = true ↔
        ShowsAt shown place run.start (binaryDigits width value))) :
    (union ((pattern.predicates half).map fun predicate => bits predicate.check)).getLsbD place =
        true ↔
      ∃ c, pattern.text.toList[15 - place]? = some c ∧ shown c := by
  rw [getLsbD_union_iff, ← showsAt_zero_iff inside,
    ← pattern.scans.exists_getLsbD_iff_showsAt hidden half place ofRun]
  simp only [predicates, List.mem_map, exists_exists_and_eq_and]

theorem getLsbD_union_mask_iff {place : Nat} (inside : place < 16) :
    (union ((pattern.predicates half).map (·.check.mask))).getLsbD place = true ↔
      pattern.text.toList[15 - place]? = some '0' ∨ pattern.text.toList[15 - place]? = some '1' := by
  have hidden : ¬IsDigit wildcard := not_or.mpr ⟨by decide, by decide⟩
  have digits := pattern.getLsbD_union_predicates_iff half hidden inside
    fun fits => fits.getLsbD_mask_iff_showsAt half place
  rw [digits]
  simp only [IsDigit, and_or_left, exists_or, exists_eq_right]

theorem getLsbD_union_value_iff {place : Nat} (inside : place < 16) :
    (union ((pattern.predicates half).map (·.check.value))).getLsbD place = true ↔
      pattern.text.toList[15 - place]? = some '1' := by
  have ones := pattern.getLsbD_union_predicates_iff half (by decide : ¬wildcard = '1') inside
    fun fits => fits.getLsbD_value_iff_showsAt half place
  rw [ones]
  simp only [exists_eq_right]

theorem value_within_mask : ∀ predicate ∈ pattern.predicates half,
    predicate.check.value &&& predicate.check.mask = predicate.check.value := by
  refine List.forall_mem_map.mpr ?_
  intro run member
  obtain ⟨width, value, fits⟩ := pattern.exists_fits run member
  have within := fits.within
  have low := fits.low_eq
  rw [fits.mask_eq, fits.value_eq, and_field_eq_iff _ _ _ _ (by omega)]
  intro place bound
  rw [getLsbD_field, Nat.add_sub_cancel_left]
  simp only [bound, decide_true, Bool.and_true, Bool.and_eq_right_iff_imp, Bool.and_eq_true,
    decide_eq_true_eq]
  omega

theorem half_of_mem_predicates : ∀ predicate ∈ pattern.predicates half, predicate.half = half :=
  List.forall_mem_map.mpr fun _ _ => rfl

theorem descending : (pattern.predicates half).Pairwise fun first second =>
    second.check.high + 2 ≤ first.check.low := by
  refine (pattern.predicates_above half).imp_of_mem ?_
  intro first second firstMember secondMember above
  exact above ((pattern.half_of_mem_predicates half first firstMember).trans
    (pattern.half_of_mem_predicates half second secondMember).symm)

theorem disjoint_masks : (pattern.predicates half).Pairwise fun first second =>
    first.check.mask &&& second.check.mask = 0 := by
  have proper := pattern.proper_of_mem_predicates half
  refine (pattern.descending half).imp_of_mem ?_
  intro first second firstMember secondMember gap
  apply BitVec.eq_of_getLsbD_eq
  intro place _
  have zero : (0 : HalfWord).getLsbD place = false := BitVec.getLsbD_zero
  rw [BitVec.getLsbD_and, zero, ← Bool.not_eq_true, Bool.and_eq_true,
    Check.getLsbD_mask_iff (proper first firstMember),
    Check.getLsbD_mask_iff (proper second secondMember)]
  omega

theorem not_mem_of_isFull {predicate : Predicate} (member : predicate ∈ pattern.predicates half)
    (full : predicate.check.isFull = true) : wildcard ∉ pattern.text.toList := by
  obtain ⟨length, _⟩ := (validate_eq_ok_iff pattern.text).mp pattern.valid
  have proper := pattern.proper_of_mem_predicates half predicate member
  have all : predicate.check.high = 15 ∧ predicate.check.low = 0 := by
    cases check : predicate.check with
    | bit place value =>
      rw [check] at full
      cases full
    | range high low literal =>
      rw [check, Check.isFull, Bool.and_eq_true, decide_eq_true_eq, decide_eq_true_eq] at full
      exact full
  intro wild
  obtain ⟨index, bound, found⟩ := List.mem_iff_getElem.mp wild
  have inside : index < 16 := Nat.lt_of_lt_of_eq bound length
  have looked : predicate.check.mask.getLsbD (15 - index) = true := by
    rw [Check.getLsbD_mask_iff proper]
    omega
  have digit := (pattern.getLsbD_union_mask_iff half (by omega : 15 - index < 16)).mp
    ((getLsbD_union_iff _ _).mpr ⟨_, List.mem_map_of_mem member, looked⟩)
  rw [Nat.sub_sub_self (by omega), List.getElem?_eq_getElem bound, found] at digit
  exact absurd digit (by decide)

theorem isFull_of_not_mem (free : wildcard ∉ pattern.text.toList) :
    ∀ predicate ∈ pattern.predicates half, predicate.check.isFull = true := by
  obtain ⟨length, _⟩ := (validate_eq_ok_iff pattern.text).mp pattern.valid
  have fixed : ∀ c ∈ pattern.text.toList, isFixed c = true := fun c member =>
    bne_iff_ne.mpr fun wild => free (wild ▸ member)
  have filled : pattern.text.toList ≠ [] := by
    rw [← List.length_pos_iff, length]
    decide
  have whole : runsFrom 0 (pattern.text.toList ++ []) =
      [⟨0, String.ofList pattern.text.toList⟩] := by
    rw [runsFrom_piece 0 filled fixed (.inl rfl), runsFrom]
  rw [List.append_nil, String.ofList_toList] at whole
  have alone : runs pattern.text = [⟨0, pattern.text⟩] := whole
  obtain ⟨width, value, fits⟩ := pattern.exists_fits ⟨0, pattern.text⟩
    (alone ▸ List.mem_singleton_self _)
  have size : width = 16 := by
    have digits := congrArg (·.toList.length) fits.literal
    simp only [String.toList_ofList, length_binaryDigits, length] at digits
    exact digits.symm
  have high := fits.high_eq
  have low := fits.low_eq
  have wide := fits.width_eq
  rw [size] at high low wide
  rw [predicates, alone, List.map_singleton, List.forall_mem_singleton, Run.predicate,
    if_neg (by rw [wide]; decide), Check.isFull, high, low]
  rfl

theorem decomposesInto_predicates : pattern.DecomposesInto (pattern.predicates half) where
  disjoint := pattern.disjoint_masks half
  masks _ := pattern.getLsbD_union_mask_iff half
  within := pattern.value_within_mask half
  values _ := pattern.getLsbD_union_value_iff half
  descending := pattern.descending half
  full predicate member :=
    ⟨pattern.not_mem_of_isFull half member, fun free => pattern.isFull_of_not_mem half free _ member⟩
  restored := pattern.restore_predicates half
  words := by
    refine List.forall_mem_map.mpr ?_
    intro run member
    obtain ⟨width, value, fits⟩ := pattern.exists_fits run member
    exact fits.words?_eq half

theorem filter_predicates (other : Half) :
    (pattern.predicates half).filter (·.half = other) =
      if half = other then pattern.predicates half else [] := by
  split
  · next same =>
      rw [List.filter_eq_self]
      intro predicate member
      exact decide_eq_true ((pattern.half_of_mem_predicates half predicate member).trans same)
  · next differ =>
      rw [List.filter_eq_nil_iff]
      intro predicate member
      rw [decide_eq_true_eq, pattern.half_of_mem_predicates half predicate member]
      exact differ

end HalfPattern

namespace BitPattern

theorem filter_predicates_eq (pattern : BitPattern) (half : Half) :
    pattern.predicates.filter (·.half = half) =
      (pattern.halves.filter (·.1 = half)).flatMap fun part => part.2.predicates part.1 := by
  rw [predicates_eq_flatMap]
  induction pattern.halves with
  | nil => rfl
  | cons part parts ih =>
    rw [List.flatMap_cons, List.filter_append, HalfPattern.filter_predicates, ih, List.filter_cons]
    by_cases same : part.1 = half
    · rw [if_pos same, if_pos (decide_eq_true same), List.flatMap_cons]
    · rw [if_neg same, if_neg (by simpa using same), List.nil_append]

theorem filter_halves (pattern : BitPattern) : ∀ part ∈ pattern.halves,
    pattern.halves.filter (·.1 = part.1) = [part] := by
  unfold halves
  cases pattern.hi <;> simp

/-- The predicates of each half are the parts of its pattern, those of the low half come first, and
no step of their arithmetic leaves the range of its word. -/
theorem predicates_decompose (pattern : BitPattern) :
    (∀ part ∈ pattern.halves,
      part.2.DecomposesInto (pattern.predicates.filter (·.half = part.1))) ∧
    pattern.predicates = pattern.predicates.filter (·.half = .lo) ++
      pattern.predicates.filter (·.half = .hi) ∧
    (∀ predicate ∈ pattern.predicates, predicate.half ∈ pattern.halves.map (·.1)) ∧
    ∀ part ∈ pattern.halves, ∀ run ∈ runs part.2.text,
      run.width? = some run.width ∧ run.high? = some run.high ∧ run.low? = some run.low := by
  refine ⟨?_, ?_, ?_, ?_⟩
  · intro part member
    rw [filter_predicates_eq, pattern.filter_halves part member, List.flatMap_singleton]
    exact part.2.decomposesInto_predicates part.1
  · rw [filter_predicates_eq, filter_predicates_eq, ← List.flatMap_append, predicates_eq_flatMap]
    congr 1
    unfold halves
    cases pattern.hi <;> rfl
  · rw [forall_mem_predicates_iff]
    intro part member
    refine List.forall_mem_map.mpr ?_
    intro run _
    exact List.mem_map_of_mem member
  · intro part _ run member
    obtain ⟨width, value, fits⟩ := part.2.exists_fits run member
    exact ⟨fits.width?_eq, fits.high?_eq, fits.low?_eq⟩

end BitPattern

end DecoderTables
