import DecoderTables.Listing
import Mathlib.Data.List.Basic

/-!
Colour sequences. A styled text shows the text itself, so a line printed in pieces shows what the
pieces show, with its padding at the same places.
-/

namespace DecoderTables.Listing

def escapeChar : Char := '\x1b'

/-- A text less its colour sequences, each of them from an escape character and a bracket to the
next `m`. -/
def uncoloured : List Char → List Char
  | [] => []
  | c :: rest =>
      if c = escapeChar ∧ rest.head? = some '[' ∧ 'm' ∈ rest then
        uncoloured (rest.dropWhile (· != 'm')).tail
      else c :: uncoloured rest
termination_by text => text.length
decreasing_by
  · have shorter := (List.dropWhile_suffix (· != 'm') (l := rest)).length_le
    rw [List.length_tail, List.length_cons]
    omega
  · exact Nat.lt_succ_self _

theorem uncoloured_append_of_not_mem {plain : List Char} (free : escapeChar ∉ plain)
    (behind : List Char) : uncoloured (plain ++ behind) = plain ++ uncoloured behind := by
  induction plain with
  | nil => rfl
  | cons c plain ih =>
    obtain ⟨other, later⟩ := not_or.mp (mt List.mem_cons.mpr free)
    rw [List.cons_append, uncoloured, if_neg fun sequence => other sequence.1.symm, ih later,
      List.cons_append]

theorem uncoloured_sequence {code : List Char} (free : 'm' ∉ code) (behind : List Char) :
    uncoloured (escapeChar :: '[' :: (code ++ 'm' :: behind)) = uncoloured behind := by
  have passed : ∀ c ∈ '[' :: code, (c != 'm') = true := by
    refine List.forall_mem_cons.mpr ⟨rfl, fun c member => ?_⟩
    exact bne_iff_ne.mpr fun same => free (same ▸ member)
  have stop : (('[' :: code) ++ 'm' :: behind).dropWhile (· != 'm') = 'm' :: behind := by
    rw [List.dropWhile_append_of_pos passed]
    rfl
  rw [List.cons_append] at stop
  rw [uncoloured, if_pos ⟨rfl, rfl, by simp⟩, stop, List.tail_cons]

/-- What is printed shows a text, whatever is printed behind it. -/
def Displays (printed shown : String) : Prop :=
  ∀ behind, uncoloured (printed.toList ++ behind) = shown.toList ++ uncoloured behind

theorem Displays.append {printed shown more added : String} (first : Displays printed shown)
    (second : Displays more added) : Displays (printed ++ more) (shown ++ added) := by
  intro behind
  rw [String.toList_append, String.toList_append, List.append_assoc, List.append_assoc, first,
    second]

theorem Displays.eq {printed shown : String} (displays : Displays printed shown) :
    uncoloured printed.toList = shown.toList := by
  have alone := displays []
  rwa [List.append_nil, uncoloured, List.append_nil] at alone

theorem displays_of_not_mem {text : String} (free : escapeChar ∉ text.toList) :
    Displays text text :=
  uncoloured_append_of_not_mem free

theorem displays_escape {code : String} (free : 'm' ∉ code.toList) :
    Displays (escape code) "" := by
  intro behind
  have letters : (escape code).toList = escapeChar :: '[' :: (code.toList ++ ['m']) := by
    rw [escape, String.toList_append, String.toList_append]
    rfl
  rw [letters, List.cons_append, List.cons_append, List.append_assoc, List.singleton_append,
    uncoloured_sequence free]
  rfl

theorem displays_styled (color : Color) (style : Style) {text : String}
    (free : escapeChar ∉ text.toList) : Displays (styled color style text) text := by
  have itself := displays_of_not_mem free
  cases color with
  | off => exact itself
  | on =>
    have codes : 'm' ∉ style.codes.1.toList ∧ 'm' ∉ style.codes.2.toList := by
      cases style <;> decide
    have whole := ((displays_escape codes.1).append itself).append (displays_escape codes.2)
    rwa [String.empty_append, String.append_empty] at whole

theorem displays_join {printed shown : List String} (displays : List.Forall₂ Displays printed shown) :
    Displays (String.join printed) (String.join shown) := by
  induction displays with
  | nil => exact fun _ => rfl
  | cons first _ ih =>
    rw [String.join_cons, String.join_cons]
    exact first.append ih

end DecoderTables.Listing
