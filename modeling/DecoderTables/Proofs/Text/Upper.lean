import DecoderTables.Text.Upper
import Mathlib.Data.Nat.Bitwise

/-!
Upper case. The first character of an image is its own upper case, and the underscore is in no image
but its own. Both are facts about the tables, which are laid out here as one list of characters with
their images.
-/

namespace DecoderTables.Text

/-- The code points that a range is for. -/
def CaseRange.codes (range : CaseRange) : List Nat :=
  (List.range ((range.last - range.first) / range.step + 1)).map (range.first + range.step * ·)

theorem CaseRange.mem_codes {range : CaseRange} {code : Nat} (covered : range.covers code = true) :
    code ∈ range.codes := by
  simp only [covers, Bool.and_eq_true, decide_eq_true_eq, beq_iff_eq] at covered
  obtain ⟨⟨above, below⟩, whole⟩ := covered
  refine List.mem_map.mpr ⟨(code - range.first) / range.step, List.mem_range.mpr ?_, ?_⟩
  · exact Nat.lt_succ_of_le (Nat.div_le_div_right (by omega))
  · rw [Nat.mul_div_cancel' (Nat.dvd_of_mod_eq_zero whole)]
    omega

/-- The code points of the tables, each with its image. -/
def images : List (Nat × List Nat) :=
  expansions ++ caseRanges.flatMap fun range =>
    range.codes.map fun code => (code, [range.image code])

theorem upperCodes_cases (code : Nat) :
    upperCodes code = [code] ∨ (code, upperCodes code) ∈ images := by
  unfold upperCodes images
  cases expanded : expansions.lookup code with
  | some image =>
    obtain ⟨before, after, split, _⟩ := List.lookup_eq_some_iff.mp expanded
    exact .inr (List.mem_append_left _ (by rw [split]; simp))
  | none =>
    cases found : caseRanges.find? (·.covers code) with
    | none => exact .inl rfl
    | some range =>
      right
      have covered : range.covers code = true := by simpa using List.find?_some found
      refine List.mem_append_right _
        (List.mem_flatMap.mpr ⟨range, List.mem_of_find?_eq_some found, ?_⟩)
      exact List.mem_map.mpr ⟨code, CaseRange.mem_codes covered, rfl⟩

theorem upperCodes_eq_self {code : Nat} (free : code ∉ images.map (·.1)) :
    upperCodes code = [code] :=
  (upperCodes_cases code).resolve_right fun listed => free (List.mem_map_of_mem listed)

/-! Two lists of numbers are compared as two numbers, with a bit for each member. -/

def bitSet (members : List Nat) : Nat :=
  members.foldr (fun code bits => bits ||| 1 <<< code) 0

theorem testBit_bitSet_iff (members : List Nat) (code : Nat) :
    (bitSet members).testBit code = true ↔ code ∈ members := by
  induction members with
  | nil => simp [bitSet]
  | cons first members ih =>
    have single : (1 <<< first).testBit code = decide (first = code) := by
      rw [Nat.one_shiftLeft, Nat.testBit_two_pow]
    rw [bitSet, List.foldr_cons, Nat.testBit_lor, single, ← bitSet, Bool.or_eq_true, ih,
      List.mem_cons, decide_eq_true_eq, or_comm, eq_comm]

theorem disjoint_of_bitSet {left right : List Nat} (apart : bitSet left &&& bitSet right = 0) :
    left.Disjoint right := by
  intro code first second
  have bit := congrArg (·.testBit code) apart
  simp only [Nat.testBit_land, Nat.zero_testBit, (testBit_bitSet_iff left code).mpr first,
    (testBit_bitSet_iff right code).mpr second] at bit
  cases bit

/-! What the tables say. -/

def startsImage (entry : Nat × List Nat) : Nat :=
  entry.2.headD 0

/-- No code point of the tables starts an image. -/
theorem starts_free : (images.map startsImage).Disjoint (images.map (·.1)) :=
  disjoint_of_bitSet (by decide +kernel)

/-- An image is made of characters other than the underscore, at least one. -/
def isPlainImage (image : List Nat) : Bool :=
  !image.isEmpty && image.all fun code => decide code.isValidChar && code != 0x5F

theorem images_plain : images.all (isPlainImage ·.2) = true := by decide +kernel

theorem plain_of_mem_images {entry : Nat × List Nat} (listed : entry ∈ images) :
    entry.2 ≠ [] ∧ ∀ code ∈ entry.2, code.isValidChar ∧ code ≠ 0x5F := by
  have plain := List.all_eq_true.mp images_plain entry listed
  simpa [isPlainImage, List.isEmpty_iff] using plain

theorem toNat_ofNat_of_isValidChar {code : Nat} (valid : code.isValidChar) :
    (Char.ofNat code).toNat = code := by
  have made : Char.ofNat code = Char.ofNatAux code valid := dif_pos valid
  rw [made]
  rfl

theorem upper_of_upperCodes_eq_self {c : Char} (own : upperCodes c.toNat = [c.toNat]) :
    upper c = [c] := by
  rw [upper, own, List.map_singleton, Char.ofNat_toNat]

/-- An image starts with a character that is its own upper case. -/
theorem exists_upper_eq_cons (c : Char) :
    ∃ first rest, upper c = first :: rest ∧ upper first = [first] := by
  rcases upperCodes_cases c.toNat with own | listed
  · have same := upper_of_upperCodes_eq_self own
    exact ⟨c, [], same, same⟩
  · obtain ⟨filled, plain⟩ := plain_of_mem_images listed
    obtain ⟨code, codes, image⟩ := List.exists_cons_of_ne_nil filled
    dsimp only at image plain
    have valid := toNat_ofNat_of_isValidChar (plain code (image ▸ List.mem_cons_self)).1
    have start : code ∈ images.map startsImage :=
      List.mem_map.mpr ⟨_, listed, by rw [startsImage, image]; rfl⟩
    refine ⟨Char.ofNat code, codes.map Char.ofNat, ?_, upper_of_upperCodes_eq_self ?_⟩
    · rw [upper, image, List.map_cons]
    · rw [valid, upperCodes_eq_self (starts_free start)]

theorem not_mem_upper {c : Char} (other : c ≠ '_') : '_' ∉ upper c := by
  rcases upperCodes_cases c.toNat with own | listed
  · rw [upper_of_upperCodes_eq_self own, List.mem_singleton]
    exact other.symm
  · obtain ⟨_, plain⟩ := plain_of_mem_images listed
    intro member
    obtain ⟨code, inside, same⟩ := List.mem_map.mp member
    obtain ⟨valid, differs⟩ := plain code inside
    have codes := congrArg Char.toNat same
    rw [toNat_ofNat_of_isValidChar valid] at codes
    exact differs codes

end DecoderTables.Text
