import DecoderTables.Proofs.Pattern.Agreement

/-!
Which bits the predicates of a pattern look at. Each looks at a row of bits, and two of them in one
half have a bit between them that neither looks at.
-/

namespace DecoderTables

theorem le_start_of_mem_runsFrom (start : Nat) (text : List Char) :
    ∀ run ∈ runsFrom start text, start ≤ run.start := by
  fun_induction runsFrom start text with
  | case1 start => simp
  | case2 start c text fixed piece ih =>
    refine List.forall_mem_cons.mpr ⟨Nat.le_refl _, ?_⟩
    intro run member
    have later := ih run member
    omega
  | case3 start c text wild ih =>
    intro run member
    have later := ih run member
    omega

/-- Between a run and the next one stands at least one wildcard. -/
theorem runsFrom_separated (start : Nat) (text : List Char) :
    (runsFrom start text).Pairwise fun run later => run.start + run.width < later.start := by
  fun_induction runsFrom start text with
  | case1 start => exact List.Pairwise.nil
  | case2 start c text fixed piece ih =>
    refine List.pairwise_cons.mpr ⟨?_, ih⟩
    intro run member
    change start + (String.ofList piece).utf8ByteSize < run.start
    rw [utf8ByteSize_ofList]
    cases rest : text.dropWhile isFixed with
    | nil =>
      rw [rest, runsFrom] at member
      cases member
    | cons stop more =>
      have wild : isFixed stop = false := by
        have head := List.head?_dropWhile_not isFixed text
        rw [rest] at head
        simpa using head
      rw [rest, runsFrom, if_neg (by simp [wild])] at member
      have later := le_start_of_mem_runsFrom _ _ run member
      omega
  | case3 start c text wild ih => exact ih

namespace Check

/-- The lowest bit that is looked at. -/
def low : Check → Nat
  | .bit place _ => place
  | .range _ low _ => low

/-- The highest bit that is looked at. -/
def high : Check → Nat
  | .bit place _ => place
  | .range high _ _ => high

/-- Some bits of a half-word, at least one. -/
def Proper (check : Check) : Prop :=
  check.low ≤ check.high ∧ check.high ≤ 15

theorem mask_eq_field (check : Check) :
    check.mask = field check.low (check.high - check.low + 1)
      (2 ^ (check.high - check.low + 1) - 1) := by
  rw [field_allOnes]
  cases check with
  | bit place value => simp [mask, low, high, Nat.shiftLeft_eq]
  | range high low literal => simp only [mask, Check.low, Check.high, Nat.shiftLeft_eq, Nat.one_mul]

theorem getLsbD_mask_iff {check : Check} (proper : check.Proper) (place : Nat) :
    check.mask.getLsbD place = true ↔ check.low ≤ place ∧ place ≤ check.high := by
  obtain ⟨ordered, within⟩ := proper
  rw [mask_eq_field, getLsbD_field, Nat.testBit_two_pow_sub_one]
  simp only [Bool.and_eq_true, decide_eq_true_eq]
  omega

end Check

/-- In a half, the bits of the second predicate lie below those of the first and do not touch
them. -/
def Predicate.Above (first second : Predicate) : Prop :=
  first.half = second.half → second.check.high + 1 < first.check.low

namespace Run.Fits

variable {run : Run} {width value : Nat}

theorem check_low (fits : run.Fits width value) (half : Half) :
    (run.predicate half).check.low = run.low := by
  have high := fits.high_eq
  unfold Run.predicate
  split
  · next one =>
      rw [fits.width_eq] at one
      change run.high = run.low
      omega
  · rfl

theorem check_high (run : Run) (half : Half) : (run.predicate half).check.high = run.high := by
  unfold Run.predicate
  split
  · rfl
  · rfl

theorem proper (fits : run.Fits width value) (half : Half) :
    (run.predicate half).check.Proper := by
  have positive := fits.positive
  have within := fits.within
  rw [Check.Proper, fits.check_low, check_high, fits.high_eq, fits.low_eq]
  omega

end Run.Fits

namespace HalfPattern

theorem proper_of_mem_predicates (pattern : HalfPattern) (half : Half) :
    ∀ predicate ∈ pattern.predicates half, predicate.check.Proper := by
  refine List.forall_mem_map.mpr ?_
  intro run member
  obtain ⟨width, value, fits⟩ := pattern.exists_fits run member
  exact fits.proper half

theorem predicates_above (pattern : HalfPattern) (half : Half) :
    (pattern.predicates half).Pairwise Predicate.Above := by
  refine List.pairwise_map.mpr ((runsFrom_separated 0 pattern.text.toList).imp_of_mem ?_)
  intro run later runMember laterMember gap _
  obtain ⟨width, value, fits⟩ := pattern.exists_fits run runMember
  obtain ⟨laterWidth, laterValue, laterFits⟩ := pattern.exists_fits later laterMember
  have positive := laterFits.positive
  have within := laterFits.within
  rw [fits.width_eq] at gap
  rw [fits.check_low, Run.Fits.check_high, laterFits.high_eq, laterFits.low_eq, fits.low_eq]
  omega

end HalfPattern

namespace BitPattern

/-- The half-words that a pattern speaks of. -/
def halves (pattern : BitPattern) : List (Half × HalfPattern) :=
  (.lo, pattern.lo) :: (pattern.hi.map (Half.hi, ·)).toList

theorem predicates_eq_flatMap (pattern : BitPattern) :
    pattern.predicates = pattern.halves.flatMap fun part => part.2.predicates part.1 := by
  unfold predicates halves
  cases pattern.hi <;> simp

theorem accepts_iff_halves (pattern : BitPattern) (lo hi : HalfWord) :
    pattern.accepts lo hi = true ↔
      ∀ part ∈ pattern.halves, part.2.accepts (part.1.select lo hi) = true := by
  unfold accepts halves
  cases pattern.hi <;> simp [Half.select]

theorem forall_mem_predicates_iff (pattern : BitPattern) (holds : Predicate → Prop) :
    (∀ predicate ∈ pattern.predicates, holds predicate) ↔
      ∀ part ∈ pattern.halves, ∀ predicate ∈ part.2.predicates part.1, holds predicate := by
  rw [predicates_eq_flatMap]
  exact List.forall_mem_flatMap

theorem proper_of_mem_predicates (pattern : BitPattern) :
    ∀ predicate ∈ pattern.predicates, predicate.check.Proper := by
  rw [forall_mem_predicates_iff]
  exact fun part _ => part.2.proper_of_mem_predicates part.1

theorem predicates_above (pattern : BitPattern) : pattern.predicates.Pairwise Predicate.Above := by
  rw [predicates_eq_flatMap, List.pairwise_flatMap]
  refine ⟨fun part _ => part.2.predicates_above part.1, ?_⟩
  -- predicates of different halves are not compared
  have apart : pattern.halves.Pairwise fun first second => first.1 ≠ second.1 := by
    unfold halves
    cases pattern.hi <;> simp
  refine apart.imp ?_
  intro first second different predicate member other otherMember half
  obtain ⟨_, _, rfl⟩ := List.mem_map.mp member
  obtain ⟨_, _, rfl⟩ := List.mem_map.mp otherMember
  exact absurd half different

end BitPattern

end DecoderTables
