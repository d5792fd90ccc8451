import DecoderTables.Proofs.Pattern.Separation
import Mathlib.Data.List.Perm.Subperm

/-!
The predicates of a pattern are as few as can be. Changing one bit of an accepted encoding shows
which bits a list of predicates looks at, so lists that accept the same encodings look at the same
bits. No predicate of such a list reaches over the free bit between two runs, and the lowest bit of
every run needs one.
-/

namespace DecoderTables

/-- An encoding with one bit changed. -/
def Half.flip (half : Half) (place : Nat) (lo hi : HalfWord) : HalfWord × HalfWord :=
  match half with
  | .lo => (lo ^^^ BitVec.twoPow 16 place, hi)
  | .hi => (lo, hi ^^^ BitVec.twoPow 16 place)

theorem Half.select_flip (half other : Half) (place : Nat) (lo hi : HalfWord) :
    other.select (half.flip place lo hi).1 (half.flip place lo hi).2 =
      if other = half then other.select lo hi ^^^ BitVec.twoPow 16 place else other.select lo hi := by
  cases half <;> cases other <;> rfl

theorem flip_and_mask_iff (raw mask : HalfWord) (place : Nat) (inside : place < 16) :
    (raw ^^^ BitVec.twoPow 16 place) &&& mask = raw &&& mask ↔ mask.getLsbD place = false := by
  apply Iff.intro
  · intro same
    have here := congrArg (·.getLsbD place) same
    simp only [BitVec.getLsbD_and, BitVec.getLsbD_xor, BitVec.getLsbD_twoPow, inside, decide_true,
      Bool.true_and] at here
    cases fixed : mask.getLsbD place with
    | false => rfl
    | true => cases bit : raw.getLsbD place <;> simp [fixed, bit] at here
  · intro free
    apply BitVec.eq_of_getLsbD_eq
    intro other bound
    by_cases equal : place = other
    · subst equal
      simp [free]
    · simp [equal]

namespace Predicate

/-- Whether a bit of a half is among those that a predicate looks at. -/
def LooksAt (predicate : Predicate) (half : Half) (place : Nat) : Prop :=
  predicate.half = half ∧ predicate.check.low ≤ place ∧ place ≤ predicate.check.high

/-- An accepted encoding may be changed where the predicate does not look. -/
theorem accepts_flip_iff {predicate : Predicate} (proper : predicate.check.Proper)
    {lo hi : HalfWord} (accepted : predicate.accepts lo hi = true) (half : Half) (place : Nat)
    (inside : place < 16) :
    predicate.accepts (half.flip place lo hi).1 (half.flip place lo hi).2 = true ↔
      ¬predicate.LooksAt half place := by
  rw [accepts_iff] at accepted ⊢
  rw [Half.select_flip, ← accepted, LooksAt, ← Check.getLsbD_mask_iff proper]
  by_cases same : predicate.half = half
  · rw [if_pos same, flip_and_mask_iff _ _ _ inside]
    simp [same]
  · simp [same]

theorem forall_accepts_flip_iff {predicates : List Predicate}
    (proper : ∀ predicate ∈ predicates, predicate.check.Proper) {lo hi : HalfWord}
    (accepted : ∀ predicate ∈ predicates, predicate.accepts lo hi = true) (half : Half)
    (place : Nat) (inside : place < 16) :
    (∀ predicate ∈ predicates,
        predicate.accepts (half.flip place lo hi).1 (half.flip place lo hi).2 = true) ↔
      ∀ predicate ∈ predicates, ¬predicate.LooksAt half place :=
  forall₂_congr fun predicate member =>
    accepts_flip_iff (proper predicate member) (accepted predicate member) half place inside

/-- Lists that accept the same encodings, at least one, look at the same bits. -/
theorem exists_looksAt_iff {these those : List Predicate}
    (proper : ∀ predicate ∈ these ++ those, predicate.check.Proper)
    (same : ∀ lo hi, (∀ predicate ∈ these, predicate.accepts lo hi = true) ↔
      ∀ predicate ∈ those, predicate.accepts lo hi = true)
    {lo hi : HalfWord} (accepted : ∀ predicate ∈ these, predicate.accepts lo hi = true)
    (half : Half) (place : Nat) (inside : place < 16) :
    (∃ predicate ∈ these, predicate.LooksAt half place) ↔
      ∃ predicate ∈ those, predicate.LooksAt half place := by
  obtain ⟨first, second⟩ := List.forall_mem_append.mp proper
  have flipped := same (half.flip place lo hi).1 (half.flip place lo hi).2
  rw [forall_accepts_flip_iff first accepted half place inside,
    forall_accepts_flip_iff second ((same lo hi).mp accepted) half place inside] at flipped
  simpa using not_congr flipped

/-- The bit below a predicate is free. -/
theorem not_looksAt_below {predicates : List Predicate} (above : predicates.Pairwise Above)
    {predicate : Predicate} (member : predicate ∈ predicates)
    (ordered : predicate.check.low ≤ predicate.check.high) {place : Nat}
    (below : place + 1 = predicate.check.low) :
    ∀ other ∈ predicates, ¬other.LooksAt predicate.half place := by
  obtain ⟨before, after, rfl⟩ := List.append_of_mem member
  obtain ⟨_, later, earlier⟩ := List.pairwise_append.mp above
  obtain ⟨next, _⟩ := List.pairwise_cons.mp later
  intro other otherMember looks
  obtain ⟨half, lower, upper⟩ := looks
  rcases List.mem_append.mp otherMember with old | new
  · have gap := earlier other old predicate List.mem_cons_self half
    omega
  · rcases List.mem_cons.mp new with rfl | new
    · omega
    · have gap := next other new half.symm
      omega

section Charging

variable {these those : List Predicate} (above : these.Pairwise Above)
  (proper : ∀ predicate ∈ these, predicate.check.Proper)
  (same : ∀ half place, place < 16 → ((∃ predicate ∈ these, predicate.LooksAt half place) ↔
    ∃ predicate ∈ those, predicate.LooksAt half place))

include above proper same

/-- A predicate that looks at the lowest bits of two of the predicates would look at the free bit
between them. -/
theorem not_looksAt_both {first second other : Predicate} (firstMember : first ∈ these)
    (secondMember : second ∈ these) (gap : first.Above second) (member : other ∈ those)
    (looks : other.LooksAt first.half first.check.low) :
    ¬other.LooksAt second.half second.check.low := by
  intro looksAtSecond
  obtain ⟨firstHalf, firstLower, firstUpper⟩ := looks
  obtain ⟨secondHalf, secondLower, _⟩ := looksAtSecond
  have apart := gap (firstHalf.symm.trans secondHalf)
  obtain ⟨ordered, within⟩ := proper first firstMember
  have secondOrdered := (proper second secondMember).1
  obtain ⟨place, below⟩ : ∃ place, place + 1 = first.check.low :=
    ⟨first.check.low - 1, by omega⟩
  have between : other.LooksAt first.half place := ⟨firstHalf, by omega, by omega⟩
  obtain ⟨own, ownMember, ownLooks⟩ :=
    (same first.half place (by omega)).mpr ⟨other, member, between⟩
  exact not_looksAt_below above firstMember ordered below own ownMember ownLooks

/-- Each predicate is charged to another one that looks at its lowest bit. -/
theorem length_le_of_looksAt : these.length ≤ those.length := by
  have charged : ∀ predicate : Predicate, ∃ other, predicate ∈ these →
      other ∈ those ∧ other.LooksAt predicate.half predicate.check.low := by
    intro predicate
    by_cases member : predicate ∈ these
    · obtain ⟨ordered, within⟩ := proper predicate member
      obtain ⟨other, found, looks⟩ := (same predicate.half predicate.check.low (by omega)).mp
        ⟨predicate, member, rfl, Nat.le_refl _, ordered⟩
      exact ⟨other, fun _ => ⟨found, looks⟩⟩
    · exact ⟨predicate, fun present => absurd present member⟩
  choose charge charges using charged
  have distinct : (these.map charge).Nodup := by
    refine List.pairwise_map.mpr (above.imp_of_mem ?_)
    intro first second firstMember secondMember gap equal
    obtain ⟨found, looks⟩ := charges first firstMember
    have looksAtSecond := (charges second secondMember).2
    rw [← equal] at looksAtSecond
    exact not_looksAt_both above proper same firstMember secondMember gap found looks looksAtSecond
  have inside : these.map charge ⊆ those := by
    intro other member
    obtain ⟨predicate, present, rfl⟩ := List.mem_map.mp member
    exact (charges predicate present).1
  simpa using (List.subperm_of_subset distinct inside).length_le

end Charging

end Predicate

/-- A half-word with the digits of a pattern, and zeros in place of its wildcards, is accepted. -/
theorem HalfPattern.exists_accepts (pattern : HalfPattern) :
    ∃ raw, pattern.accepts raw = true := by
  obtain ⟨length, _⟩ := (validate_eq_ok_iff pattern.text).mp pattern.valid
  let digits := pattern.text.toList.map fun c => if c = '1' then '1' else '0'
  have only : IsDigits digits := by
    intro c member
    obtain ⟨other, _, rfl⟩ := List.mem_map.mp member
    split
    · exact Or.inr rfl
    · exact Or.inl rfl
  have width : digits.length = 16 := by rw [List.length_map, length, halfWidth]
  obtain ⟨value, bound, same⟩ := exists_eq_binaryDigits digits only
  rw [width] at bound same
  have fits : AgreesFrom 0 digits (BitVec.ofNat 16 value) := by
    rw [same, agreesFrom_binaryDigits _ _ _ _ (by omega)]
    intro place inside
    rw [BitVec.getLsbD_ofNat]
    simp [inside]
  refine ⟨BitVec.ofNat 16 value, (pattern.accepts_iff_agreesFrom _).mpr ?_⟩
  intro item member
  obtain ⟨c, index⟩ := item
  have here := fits ((if c = '1' then '1' else '0'), index) (by
    rw [List.zipIdx_map]
    exact List.mem_map.mpr ⟨(c, index), member, rfl⟩)
  by_cases one : c = '1'
  · simpa [one] using here
  · by_cases zero : c = '0'
    · simpa [zero] using here
    · simp [agrees, one, zero]

namespace BitPattern

theorem exists_accepts (pattern : BitPattern) : ∃ lo hi, pattern.accepts lo hi = true := by
  obtain ⟨lo, low⟩ := pattern.lo.exists_accepts
  unfold accepts
  cases wide : pattern.hi with
  | none => exact ⟨lo, 0, by simp [low]⟩
  | some high =>
    obtain ⟨hi, accepted⟩ := high.exists_accepts
    exact ⟨lo, hi, by simp [low, accepted]⟩

/-- The predicates of a pattern are themselves proper and accept exactly its encodings, so that the
bound of `length_predicates_le` is attained. -/
theorem proper_and_accepts_of_predicates (pattern : BitPattern) :
    (∀ predicate ∈ pattern.predicates, predicate.check.Proper) ∧
      ∀ lo hi, (∀ predicate ∈ pattern.predicates, predicate.accepts lo hi = true) ↔
        pattern.accepts lo hi = true := by
  refine ⟨pattern.proper_of_mem_predicates, fun lo hi => ?_⟩
  rw [accepts_iff_halves, forall_mem_predicates_iff]
  simp only [HalfPattern.accepts_iff_predicates]

/-- No shorter list of predicates accepts the same encodings. -/
theorem length_predicates_le (pattern : BitPattern) (others : List Predicate)
    (proper : ∀ predicate ∈ others, predicate.check.Proper)
    (same : ∀ lo hi, (∀ predicate ∈ others, predicate.accepts lo hi = true) ↔
      pattern.accepts lo hi = true) :
    pattern.predicates.length ≤ others.length := by
  obtain ⟨own, accepts⟩ := pattern.proper_and_accepts_of_predicates
  have equal : ∀ lo hi, (∀ predicate ∈ pattern.predicates, predicate.accepts lo hi = true) ↔
      ∀ predicate ∈ others, predicate.accepts lo hi = true :=
    fun lo hi => (accepts lo hi).trans (same lo hi).symm
  obtain ⟨lo, hi, accepted⟩ := pattern.exists_accepts
  have chosen := (accepts lo hi).mpr accepted
  apply Predicate.length_le_of_looksAt pattern.predicates_above own
  exact Predicate.exists_looksAt_iff (List.forall_mem_append.mpr ⟨own, proper⟩) equal chosen

/-- A run of two digits. -/
def twoDigits : BitPattern :=
  ⟨⟨"01xxxxxxxxxxxxxx", by decide⟩, none⟩

/-- The digits of `twoDigits` one by one. -/
def digitByDigit : List Predicate :=
  [⟨.lo, .bit 15 false⟩, ⟨.lo, .bit 14 true⟩]

theorem digitByDigit_accepts_iff (lo hi : HalfWord) :
    (∀ predicate ∈ digitByDigit, predicate.accepts lo hi = true) ↔
      twoDigits.accepts lo hi = true := by
  have first : (⟨0, "0"⟩ : Run).Fits 1 0 := ⟨by decide, by decide, by decide, by decide⟩
  have second : (⟨1, "1"⟩ : Run).Fits 1 1 := ⟨by decide, by decide, by decide, by decide⟩
  have made : digitByDigit =
      [(⟨0, "0"⟩ : Run).predicate .lo, (⟨1, "1"⟩ : Run).predicate .lo] := by decide
  have text : twoDigits.lo.text.toList =
      binaryDigits 1 0 ++ (binaryDigits 1 1 ++ List.replicate 14 wildcard) := by decide
  have free : AgreesFrom 2 (List.replicate 14 wildcard) lo := by
    simp [List.replicate, agreesFrom_wildcard_cons, agreesFrom_nil]
  have whole : twoDigits.accepts lo hi = true ↔ AgreesFrom 0 twoDigits.lo.text.toList lo := by
    rw [← HalfPattern.accepts_iff_agreesFrom]
    simp [accepts, twoDigits]
  rw [whole, text, agreesFrom_append, agreesFrom_append, made, List.forall_mem_cons,
    List.forall_mem_singleton, first.accepts_iff_agreesFrom, second.accepts_iff_agreesFrom]
  simp only [length_binaryDigits, Nat.zero_add, Nat.reduceAdd, free, and_true]
  rfl

theorem length_predicates_le_digitByDigit :
    (∀ predicate ∈ digitByDigit, predicate.check.Proper) ∧
      (∀ lo hi, (∀ predicate ∈ digitByDigit, predicate.accepts lo hi = true) ↔
        twoDigits.accepts lo hi = true) ∧
      twoDigits.predicates.length ≤ digitByDigit.length := by
  have proper : ∀ predicate ∈ digitByDigit, predicate.check.Proper := by
    simp [digitByDigit, Check.Proper, Check.low, Check.high]
  exact ⟨proper, digitByDigit_accepts_iff,
    length_predicates_le twoDigits digitByDigit proper digitByDigit_accepts_iff⟩

end BitPattern

end DecoderTables
