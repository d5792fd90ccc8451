import DecoderTables.Proofs.Listing.Colours
import DecoderTables.Proofs.Pattern.Mask
import DecoderTables.Proofs.Selector.Coverage
import DecoderTables.Proofs.Text.Pieces

/-!
The view of the selector table. Colours add nothing but their sequences, and the flags of all
entries stand below one another. Widths are measured in bytes and filled up in characters, which
fits since no text has more characters than bytes.
-/

namespace DecoderTables

/-- Neither the callback nor a flag has the character. -/
structure SelectorEntry.Avoids (c : Char) (entry : SelectorEntry) : Prop where
  callback : c ∉ entry.callback.toList
  flags : ∀ flag ∈ entry.flags, c ∉ flag.toList

instance (c : Char) (entry : SelectorEntry) : Decidable (entry.Avoids c) :=
  decidable_of_iff ((!entry.callback.toList.contains c &&
      entry.flags.all (!·.toList.contains c)) = true) <| by
    simp only [Bool.and_eq_true, Bool.not_eq_true', List.contains_eq_mem, decide_eq_false_iff_not,
      List.all_eq_true]
    exact ⟨fun avoids => ⟨avoids.1, avoids.2⟩, fun avoids => ⟨avoids.callback, avoids.flags⟩⟩

namespace Listing

/-! Control characters in a line are those of its callback and of its flags. -/

section Control

variable {c : Char} (control : c.toNat < 0x20)

include control

theorem not_mem_of_printable {text : List Char}
    (printable : text.all (fun other => decide (0x20 ≤ other.toNat)) = true) : c ∉ text := by
  intro member
  have above := of_decide_eq_true (List.all_eq_true.mp printable c member)
  omega

theorem not_mem_digits {digits : List Char} (only : IsDigits digits) : c ∉ digits := by
  intro member
  rcases only c member with rfl | rfl <;> exact absurd control (by decide)

theorem not_mem_padded {text : String} (free : c ∉ text.toList) (width : Nat) :
    c ∉ (padded width text).toList := by
  have filling : c ∉ List.replicate (width - text.toList.length) ' ' := by
    intro member
    obtain rfl := List.eq_of_mem_replicate member
    exact absurd control (by decide)
  rw [padded, String.toList_ofList]
  exact List.not_mem_append free filling

theorem not_mem_intercalate {flags : List String} (free : ∀ flag ∈ flags, c ∉ flag.toList) :
    c ∉ (",".intercalate flags).toList := by
  have comma : c ∉ ",".toList := not_mem_of_printable control rfl
  rw [String.toList_intercalate]
  induction flags with
  | nil => exact List.not_mem_nil
  | cons flag flags ih =>
    obtain ⟨first, later⟩ := List.forall_mem_cons.mp free
    cases flags with
    | nil => rwa [List.map_singleton, List.intercalate_singleton]
    | cons next flags =>
      rw [List.map_cons, List.map_cons, List.intercalate_cons_cons]
      exact List.not_mem_append (List.not_mem_append first comma) (ih later)

theorem not_mem_summary (entries : List SelectorEntry) : c ∉ (summary entries).toList := by
  have number : ∀ count : Nat, c ∉ (toString count).toList := by
    intro count
    rw [show toString count = count.repr from rfl, Nat.toList_repr]
    intro member
    have digit := Nat.isDigit_of_mem_toDigits (by decide) (by decide) member
    have ranges : c.isDigit = ('0'.val ≤ c.val && c.val ≤ '9'.val) := rfl
    rw [ranges, Bool.and_eq_true, decide_eq_true_eq] at digit
    have above : 0x30 ≤ c.toNat := digit.1
    omega
  simp only [summary, String.toList_append]
  refine List.not_mem_append (List.not_mem_append (List.not_mem_append (List.not_mem_append
    (List.not_mem_append (number _) ?_) (number _)) ?_) (number _)) ?_
  all_goals exact not_mem_of_printable control rfl

/-- The entry has a key of digits, and the character is in none of its texts. -/
theorem not_mem_entryLine {entry : SelectorEntry} (digits : IsDigits entry.bin.toList)
    (avoids : entry.Avoids c) (width : Nat) : c ∉ (entryLine .off width entry).toList := by
  have kind : c ∉ entry.kind.name.toList := by
    cases entry.kind <;> exact not_mem_of_printable control rfl
  have gap : c ∉ "  ".toList := not_mem_of_printable control rfl
  have flags : c ∉ (if entry.flags.isEmpty then "" else
      "  " ++ styled .off .flags (",".intercalate entry.flags)).toList := by
    split
    · exact List.not_mem_nil
    · rw [String.toList_append]
      exact List.not_mem_append gap (not_mem_intercalate control avoids.flags)
  simp only [entryLine, styled, String.toList_append] at flags ⊢
  refine List.not_mem_append (List.not_mem_append (List.not_mem_append (List.not_mem_append
    (List.not_mem_append (List.not_mem_append ?_ (not_mem_digits control digits)) gap)
    (not_mem_padded control kind 8)) gap) (not_mem_padded control avoids.callback width)) flags
  exact not_mem_of_printable control rfl

end Control

/-! Colours. -/

theorem displays_entryLine (color : Color) (width : Nat) {entry : SelectorEntry}
    (digits : IsDigits entry.bin.toList) (avoids : entry.Avoids escapeChar) :
    Displays (entryLine color width entry) (entryLine .off width entry) := by
  have control : escapeChar.toNat < 0x20 := by decide
  have gap : Displays "  " "  " := displays_of_not_mem (not_mem_of_printable control rfl)
  have key : escapeChar ∉ ("0b" ++ entry.bin).toList := by
    rw [String.toList_append]
    exact List.not_mem_append (not_mem_of_printable control rfl) (not_mem_digits control digits)
  have kind : escapeChar ∉ entry.kind.name.toList := by
    cases entry.kind <;> exact not_mem_of_printable control rfl
  have front := ((((displays_styled color .opcode key).append gap).append
    (displays_of_not_mem (not_mem_padded control kind 8))).append gap).append
    (displays_styled color (kindStyle entry.kind)
      (not_mem_padded control avoids.callback width))
  refine front.append ?_
  split
  · exact displays_of_not_mem List.not_mem_nil
  · exact gap.append (displays_styled color .flags (not_mem_intercalate control avoids.flags))

theorem displays_text (color : Color) {tables : Tables}
    (digits : ∀ entry ∈ tables.opcodes, IsDigits entry.bin.toList)
    (avoids : ∀ entry ∈ tables.opcodes, entry.Avoids escapeChar) :
    Displays (text color tables) (text .off tables) := by
  have control : escapeChar.toNat < 0x20 := by decide
  have feed : Displays "\n" "\n" := displays_of_not_mem (by decide)
  have total := displays_of_not_mem (not_mem_summary control tables.opcodes)
  refine displays_join ?_
  rw [lines, lines, List.map_append, List.map_append, List.map_map, List.map_map]
  refine List.rel_append ?_ (.cons (total.append feed) .nil)
  rw [List.forall₂_map_left_iff, List.forall₂_map_right_iff, List.forall₂_same]
  intro entry member
  exact (displays_entryLine color _ (digits entry member) (avoids entry member)).append feed

/-! Columns. -/

theorem length_toList_le_utf8ByteSize (text : String) :
    text.toList.length ≤ text.utf8ByteSize := by
  have bound := Text.length_le_utf8Length text.toList
  rwa [← utf8ByteSize_ofList, String.ofList_toList] at bound

theorem length_padded {text : String} {width : Nat} (fits : text.toList.length ≤ width) :
    (padded width text).toList.length = width := by
  rw [padded, String.toList_ofList, List.length_rightpad, Nat.max_eq_left fits]

/-- What stands in a line before its flags. -/
def front (width : Nat) (entry : SelectorEntry) : String :=
  "0b" ++ entry.bin ++ "  " ++ padded 8 entry.kind.name ++ "  " ++ padded width entry.callback ++ "  "

theorem length_front {entry : SelectorEntry} {width : Nat} (key : entry.bin.toList.length = 5)
    (fits : entry.callback.utf8ByteSize ≤ width) :
    (front width entry).toList.length = 21 + width := by
  have name : entry.kind.name.toList.length ≤ 8 := by
    cases entry.kind <;> decide
  have callback := Nat.le_trans (length_toList_le_utf8ByteSize entry.callback) fits
  simp only [front, String.toList_append, List.length_append, key, length_padded name,
    length_padded callback]
  have zero : "0b".toList.length = 2 := rfl
  have gap : "  ".toList.length = 2 := rfl
  omega

theorem entryLine_eq_front_append {entry : SelectorEntry} (flagged : entry.flags ≠ [])
    (width : Nat) :
    entryLine .off width entry = front width entry ++ ",".intercalate entry.flags := by
  have filled : entry.flags.isEmpty = false := by simpa using flagged
  rw [entryLine, filled, if_neg Bool.false_ne_true, ← String.append_assoc]
  rfl

theorem callbackWidth_eq {entries : List SelectorEntry} {longest : Nat}
    (greatest : (entries.map (·.callback.utf8ByteSize)).max? = some longest) :
    callbackWidth entries = longest := by
  rw [callbackWidth, List.foldl_max, greatest, Option.getD_some, Nat.zero_max]

/-! The whole view. -/

theorem isDigits_bin {document : Document} {tables : Tables}
    (built : Tables.Built document tables) :
    ∀ entry ∈ tables.opcodes, IsDigits entry.bin.toList ∧ entry.bin.toList.length = 5 := by
  intro entry member
  obtain ⟨index, bound, rfl⟩ := List.mem_iff_getElem.mp member
  rw [(built.covers_getElem index bound).bin, String.toList_ofList]
  exact ⟨isDigits_binaryDigits 5 index, length_binaryDigits 5 index⟩

theorem toList_text (color : Color) (tables : Tables) :
    (text color tables).toList =
      ((lines color tables.opcodes).map String.toList).flatMap (· ++ ['\n']) := by
  rw [text, String.toList_join, List.flatMap_map, List.flatMap_map]
  exact List.flatMap_congr fun line _ => String.toList_append

/-- Where no name has a line feed, the text has a line for each entry and one for the summary. -/
theorem endedLines_text {tables : Tables}
    (digits : ∀ entry ∈ tables.opcodes, IsDigits entry.bin.toList)
    (avoids : ∀ entry ∈ tables.opcodes, entry.Avoids '\n') :
    Text.endedLines (text .off tables).toList = (lines .off tables.opcodes).map String.toList := by
  have control : '\n'.toNat < 0x20 := by decide
  rw [toList_text, Text.endedLines_flatMap_lineFeed]
  rw [List.forall_mem_map, lines, List.forall_mem_append, List.forall_mem_map,
    List.forall_mem_singleton]
  exact ⟨fun entry member => not_mem_entryLine control (digits entry member) (avoids entry member)
    _, not_mem_summary control tables.opcodes⟩

/-- The flags of an entry start at a column of a line, and end the line. -/
def FlagsAt (column : Nat) (entry : SelectorEntry) (line : List Char) : Prop :=
  column ≤ line.length ∧ line.drop column = (",".intercalate entry.flags).toList

instance (column : Nat) (entry : SelectorEntry) (line : List Char) :
    Decidable (FlagsAt column entry line) :=
  inferInstanceAs (Decidable (_ ∧ _))

/-- The text has a line for each entry and one more, and flags stand in one column of them. -/
structure Aligned (column : Nat) (entries : List SelectorEntry) (text : String) : Prop where
  length : (Text.endedLines text.toList).length = entries.length + 1
  flags : ∀ (index : Nat) entry, entries[index]? = some entry → entry.flags ≠ [] →
    ∃ line, (Text.endedLines text.toList)[index]? = some line ∧ FlagsAt column entry line

theorem flagsAt_entryLine {entry : SelectorEntry} {width : Nat} (flagged : entry.flags ≠ [])
    (key : entry.bin.toList.length = 5) (fits : entry.callback.utf8ByteSize ≤ width) :
    FlagsAt (21 + width) entry (entryLine .off width entry).toList := by
  have length := length_front key fits
  rw [entryLine_eq_front_append flagged, String.toList_append, FlagsAt, ← length]
  exact ⟨by rw [List.length_append]; exact Nat.le_add_right _ _, List.drop_left⟩

/-- Without its colour sequences the coloured view is the plain one. Where no name has a line feed,
the flags of all entries stand in one column of the plain view, behind the longest callback in
bytes. -/
theorem uncoloured_text_and_flags_aligned {document : Document} {tables : Tables}
    (built : Tables.build document = .ok tables) :
    ((∀ entry ∈ tables.opcodes, entry.Avoids escapeChar) →
      uncoloured (text .on tables).toList = (text .off tables).toList) ∧
    ((∀ entry ∈ tables.opcodes, entry.Avoids '\n') →
      ∃ longest, (tables.opcodes.map (·.callback.utf8ByteSize)).max? = some longest ∧
        Aligned (21 + longest) tables.opcodes (text .off tables)) := by
  have parts := (Tables.build_eq_ok_iff document tables).mp built
  have keys := isDigits_bin parts
  have digits := fun entry member => (keys entry member).1
  refine ⟨fun avoids => (displays_text .on digits avoids).eq, fun avoids => ?_⟩
  cases greatest : (tables.opcodes.map (·.callback.utf8ByteSize)).max? with
  | none =>
    rw [List.max?_eq_none_iff, List.map_eq_nil_iff] at greatest
    have length := parts.length_opcodes
    rw [greatest] at length
    cases length
  | some longest =>
    have printed := endedLines_text digits avoids
    rw [lines, callbackWidth_eq greatest] at printed
    refine ⟨longest, rfl, ⟨by simp [printed], ?_⟩⟩
    intro index entry found flagged
    have member := List.mem_of_getElem? found
    have fits : entry.callback.utf8ByteSize ≤ longest :=
      (List.max?_eq_some_iff.mp greatest).2 _ (List.mem_map_of_mem member)
    refine ⟨(entryLine .off longest entry).toList, ?_,
      flagsAt_entryLine flagged (keys entry member).2 fits⟩
    have inside := (List.getElem?_eq_some_iff.mp found).1
    rw [printed, List.map_append, List.getElem?_append_left (by simpa using inside),
      List.getElem?_map, List.getElem?_map, found]
    rfl

/-- The longest callback has more bytes than characters. -/
def accentedDocument : Document where
  instructions := [("mov", [])]
  decoders := [("mov_é", ⟨"mov", ["set_flags"], none, []⟩)]
  splitters := [("größenänderung", ⟨["b", "a"], []⟩)]
  opcodes := [("11111", ⟨"größenänderung", []⟩), ("00000", ⟨"mov_é", []⟩)]

theorem uncoloured_text_and_flags_aligned_accented :
    ∃ tables, Tables.build accentedDocument = .ok tables ∧
      (∀ entry ∈ tables.opcodes, entry.Avoids escapeChar ∧ entry.Avoids '\n') ∧
      uncoloured (text .on tables).toList = (text .off tables).toList ∧
      Aligned (21 + 25) tables.opcodes (text .off tables) ∧
      ∃ entry, tables.opcodes[31]? = some entry ∧ entry.flags ≠ [] := by
  have evaluated : (Tables.build accentedDocument).toOption.any (fun tables =>
      tables.opcodes.all (fun entry => decide (entry.Avoids escapeChar ∧ entry.Avoids '\n')) &&
        (tables.opcodes.map (·.callback.utf8ByteSize)).max? == some 25 &&
        tables.opcodes[31]?.any (!·.flags.isEmpty)) = true := by decide +kernel
  obtain ⟨tables, built, holds⟩ := exists_ok_of_any evaluated
  simp only [Bool.and_eq_true, List.all_eq_true, decide_eq_true_eq, beq_iff_eq] at holds
  obtain ⟨⟨avoids, widest⟩, last⟩ := holds
  obtain ⟨entry, found, flagged⟩ := (Option.any_eq_true _ _).mp last
  obtain ⟨same, aligned⟩ := uncoloured_text_and_flags_aligned built
  obtain ⟨longest, greatest, column⟩ := aligned fun entry member => (avoids entry member).2
  obtain rfl : longest = 25 := Option.some.inj (greatest.symm.trans widest)
  exact ⟨tables, built, avoids, same fun entry member => (avoids entry member).1, column, entry,
    found, by simpa using flagged⟩

/-- The name of one decoder goes over two lines. -/
def brokenNameDocument : Document where
  instructions := [("mov", [])]
  decoders := [("a\nb", ⟨"mov", ["first"], none, []⟩), ("plain", ⟨"mov", ["second"], none, []⟩)]
  splitters := []
  opcodes := [("00000", ⟨"a\nb", []⟩), ("00001", ⟨"plain", []⟩)]

/-- The text begins with the lines of the first two entries. -/
theorem exists_toList_text {tables : Tables} {first second : SelectorEntry}
    (here : tables.opcodes[0]? = some first) (next : tables.opcodes[1]? = some second) :
    ∃ behind, (text .off tables).toList =
      (entryLine .off (callbackWidth tables.opcodes) first).toList ++ '\n' ::
        ((entryLine .off (callbackWidth tables.opcodes) second).toList ++ '\n' :: behind) := by
  obtain ⟨others, listed⟩ : ∃ others, tables.opcodes = first :: second :: others := by
    match split : tables.opcodes with
    | [] | [_] => simp [split] at next
    | _ :: _ :: others =>
      rw [split] at here next
      cases here
      cases next
      exact ⟨others, rfl⟩
  rw [toList_text, lines]
  generalize callbackWidth tables.opcodes = width
  rw [listed]
  simp only [List.map_cons, List.cons_append, List.flatMap_cons, List.append_assoc,
    List.nil_append]
  exact ⟨_, rfl⟩

/-- Flags of a name with a line feed stand in another column than those of a name without. -/
theorem exists_unaligned_flags :
    ∃ tables first second before line own, Tables.build brokenNameDocument = .ok tables ∧
      (tables.opcodes.map (·.callback.utf8ByteSize)).max? = some 19 ∧
      tables.opcodes[0]? = some first ∧ first.flags = ["first"] ∧
      tables.opcodes[1]? = some second ∧ second.flags = ["second"] ∧
      (Text.endedLines (text .off tables).toList).take 3 = [before, line, own] ∧
      FlagsAt 19 first line ∧ FlagsAt (21 + 19) second own ∧
      ¬Aligned (21 + 19) tables.opcodes (text .off tables) := by
  have evaluated : (Tables.build brokenNameDocument).toOption.any (fun tables =>
      (tables.opcodes.map (·.callback.utf8ByteSize)).max? == some 19 &&
        (tables.opcodes[0]?.any fun entry => entry.bin == "00000" && entry.kind == .decoder &&
          entry.callback == "A\nbDecoder" && entry.flags == ["first"]) &&
        tables.opcodes[1]?.any fun entry => entry.bin == "00001" && entry.kind == .decoder &&
          entry.callback == "PlainDecoder" && entry.flags == ["second"]) = true := by
    decide +kernel
  obtain ⟨tables, built, holds⟩ := exists_ok_of_any evaluated
  simp only [Bool.and_eq_true, Option.any_eq_true, beq_iff_eq] at holds
  obtain ⟨⟨widest, first, here, ⟨⟨bin, kind⟩, callback⟩, flags⟩, second, next,
    ⟨⟨otherBin, otherKind⟩, otherCallback⟩, others⟩ := holds
  obtain ⟨behind, printed⟩ := exists_toList_text here next
  have broken : (entryLine .off 19 first).toList =
      "0b00000  decoder   A".toList ++ '\n' :: "bDecoder           first".toList := by
    rw [entryLine, bin, kind, callback, flags]
    rfl
  have plain : (entryLine .off 19 second).toList =
      "0b00001  decoder   PlainDecoder         second".toList := by
    rw [entryLine, otherBin, otherKind, otherCallback, others]
    rfl
  rw [callbackWidth_eq widest, broken, plain, List.append_assoc, List.cons_append] at printed
  have rows := congrArg Text.endedLines printed
  rw [Text.endedLines_append_lineFeed (by decide), Text.endedLines_append_lineFeed (by decide),
    Text.endedLines_append_lineFeed (by decide)] at rows
  refine ⟨tables, first, second, _, _, _, built, widest, here, flags, next, others,
    congrArg (List.take 3) rows, ?_, ?_, ?_⟩
  · rw [FlagsAt, flags]
    decide
  · rw [FlagsAt, others]
    decide
  · intro aligned
    obtain ⟨line, found, long, _⟩ := aligned.flags 0 first here (by simp [flags])
    rw [rows] at found
    cases found
    exact absurd long (by decide)

end Listing

end DecoderTables
