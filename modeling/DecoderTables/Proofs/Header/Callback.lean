import DecoderTables.Proofs.Header.Token
import DecoderTables.Selector

/-!
The names of the functions in the decoder header. If the names of an entry are made of ASCII
letters, digits and underscores, then so is its callback: upper case does not lead out of ASCII.
-/

namespace DecoderTables
open Identifier

namespace Text

theorem lookup_expansions_of_ascii (code : Nat) (ascii : code < 128) :
    expansions.lookup code = none := by
  have high : ∀ entry ∈ expansions, 128 ≤ entry.1 := by decide
  rw [List.lookup_eq_none_iff]
  intro entry member
  have above := high entry member
  rw [bne_iff_ne]
  omega

set_option maxRecDepth 2000 in
/-- In ASCII the upper case of a small letter is one letter, and all else stays. -/
theorem upperCodes_of_ascii (code : Nat) (ascii : code < 128) :
    upperCodes code = [if 0x61 ≤ code ∧ code ≤ 0x7A then code - 0x20 else code] := by
  have high : caseRanges.tail.all (128 ≤ ·.first) = true := by decide
  have others : caseRanges.tail.find? (·.covers code) = none := by
    rw [List.find?_eq_none]
    intro range member
    have above := of_decide_eq_true (List.all_eq_true.mp high range member)
    simp only [CaseRange.covers, Bool.and_eq_true, decide_eq_true_eq]
    omega
  have split : caseRanges = ⟨0x61, 0x7A, 1, 0x41⟩ :: caseRanges.tail := rfl
  rw [upperCodes, lookup_expansions_of_ascii code ascii, split, List.find?_cons, others]
  by_cases small : 0x61 ≤ code ∧ code ≤ 0x7A
  · have covered : CaseRange.covers ⟨0x61, 0x7A, 1, 0x41⟩ code = true := by
      simp [CaseRange.covers, small, Nat.mod_one]
    simp only [covered, small, and_self, ↓reduceIte, CaseRange.image, List.cons.injEq, and_true]
    omega
  · have missed : ¬CaseRange.covers ⟨0x61, 0x7A, 1, 0x41⟩ code = true := by
      simp only [CaseRange.covers, Bool.and_eq_true, decide_eq_true_eq]
      omega
    simp only [missed, small, ↓reduceIte]

end Text

namespace Header

theorem subset_of_mem_splitOn (separator : Char) (text piece : List Char)
    (member : piece ∈ text.splitOn separator) : piece ⊆ text := by
  induction text generalizing piece with
  | nil =>
    obtain rfl := List.mem_singleton.mp (List.splitOn_nil separator ▸ member)
    exact List.Subset.refl []
  | cons c text ih =>
    rw [List.splitOn_cons_eq_if_modifyHead] at member
    split at member
    · rcases List.mem_cons.mp member with rfl | later
      · exact List.nil_subset _
      · exact List.subset_cons_of_subset c (ih piece later)
    · cases pieces : text.splitOn separator with
      | nil => simp [pieces] at member
      | cons first others =>
        rw [pieces, List.modifyHead_cons] at member
        rcases List.mem_cons.mp member with rfl | later
        · exact List.cons_subset_cons c (ih first (pieces ▸ List.mem_cons_self))
        · exact List.subset_cons_of_subset c (ih piece (pieces ▸ List.mem_cons_of_mem _ later))

theorem isWordChar_ascii {c : Char} (plain : isWordChar c = true) : c.toNat < 128 := by
  have ranges : isWordChar c =
      ((decide ('A'.val ≤ c.val ∧ c.val ≤ 'Z'.val) || ('a'.val ≤ c.val && c.val ≤ 'z'.val)) ||
        ('0'.val ≤ c.val && c.val ≤ '9'.val) || c = '_') := rfl
  simp only [ranges, Bool.or_eq_true, Bool.and_eq_true, decide_eq_true_eq,
    UInt32.le_iff_toNat_le] at plain
  rcases plain with ((⟨_, high⟩ | ⟨_, high⟩) | ⟨_, high⟩) | rfl
  · exact Nat.lt_of_le_of_lt high (by decide)
  · exact Nat.lt_of_le_of_lt high (by decide)
  · exact Nat.lt_of_le_of_lt high (by decide)
  · decide

theorem isWord_upper {c : Char} (plain : isWordChar c = true) : IsWord (Text.upper c) := by
  have ascii := isWordChar_ascii plain
  have kept : ∀ code < 128, isWordChar (Char.ofNat code) = true →
      isWordChar (Char.ofNat (if 0x61 ≤ code ∧ code ≤ 0x7A then code - 0x20 else code)) = true := by
    decide
  rw [← Char.ofNat_toNat c] at plain
  rw [Text.upper, Text.upperCodes_of_ascii _ ascii]
  exact List.forall_mem_singleton.mpr (kept c.toNat ascii plain)

theorem isWord_append {first second : List Char} (left : IsWord first) (right : IsWord second) :
    IsWord (first ++ second) :=
  List.forall_mem_append.mpr ⟨left, right⟩

theorem isWord_capitalize {text : List Char} (plain : IsWord text) :
    IsWord (capitalize text) := by
  cases text with
  | nil => exact plain
  | cons c rest =>
    obtain ⟨first, later⟩ := List.forall_mem_cons.mp plain
    exact isWord_append (isWord_upper first) later

theorem isWord_pascalCase {name : String} (plain : IsWord name.toList) :
    IsWord (pascalCase name).toList := by
  intro c member
  rw [pascalCase, String.toList_ofList] at member
  obtain ⟨segment, piece, inside⟩ := List.mem_flatMap.mp member
  have part : IsWord segment := fun other known =>
    plain other (subset_of_mem_splitOn _ _ _ (List.mem_filter.mp piece).1 known)
  exact isWord_capitalize part c inside

/-- A name that can stand as a word. -/
def IsName (name : String) : Prop :=
  name ≠ "" ∧ IsWord name.toList

theorem IsName.toList_ne_nil {name : String} (known : IsName name) : name.toList ≠ [] :=
  mt String.toList_eq_nil_iff.mp known.1

theorem isName_invalidDecoder : IsName invalidDecoder :=
  ⟨by decide, isWord_of_all rfl⟩

theorem isName_decoderCallback {name : String} (plain : IsWord name.toList) :
    IsName (decoderCallback name) := by
  constructor
  · simp [decoderCallback]
  · rw [decoderCallback, String.toList_append]
    exact isWord_append (isWord_pascalCase plain) (isWord_of_all rfl)

theorem isName_splitterCallback {name : String} (plain : IsWord name.toList) :
    IsName (splitterCallback name) := by
  constructor
  · simp [splitterCallback]
  · rw [splitterCallback, String.toList_append]
    exact isWord_append (isWord_of_all rfl) plain

end Header

end DecoderTables
