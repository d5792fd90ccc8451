import DecoderTables.Pattern.Scan
import DecoderTables.Proofs.Pattern.Mask

/-!
The bytes of a text. A byte below 128 stands only for its own character, so it cannot be taken for a
part of another one. What stands between two parts of a text is cut out by its first and its last
byte.
-/

namespace DecoderTables.Text

def bytes (text : List Char) : List UInt8 :=
  text.flatMap String.utf8EncodeChar

@[simp] theorem bytes_nil : bytes [] = [] := rfl

@[simp] theorem bytes_cons (c : Char) (text : List Char) :
    bytes (c :: text) = String.utf8EncodeChar c ++ bytes text := rfl

@[simp] theorem bytes_append (left right : List Char) :
    bytes (left ++ right) = bytes left ++ bytes right :=
  List.flatMap_append

@[simp] theorem length_bytes (text : List Char) : (bytes text).length = utf8Length text := by
  induction text with
  | nil => rfl
  | cons c text ih =>
    rw [bytes_cons, List.length_append, ih, String.length_utf8EncodeChar, utf8Length_cons]

theorem toUTF8_ofList (text : List Char) :
    (String.ofList text).toUTF8 = (bytes text).toByteArray := by
  rw [String.toUTF8_eq_toByteArray, String.toByteArray_ofList]
  rfl

theorem toUTF8_eq (text : String) : text.toUTF8 = (bytes text.toList).toByteArray := by
  rw [← toUTF8_ofList, String.ofList_toList]

/-- The byte at a place, if the text reaches so far. -/
def byteAt? (text : String) (place : Nat) : Option UInt8 :=
  text.toUTF8.data[place]?

theorem byteAt?_eq (text : String) (place : Nat) :
    byteAt? text place = (bytes text.toList)[place]? := by
  rw [byteAt?, toUTF8_eq, List.data_toByteArray, List.getElem?_toArray]

/-- A byte below 128 is that of an ASCII character. -/
theorem toNat_eq_of_mem_utf8EncodeChar {c : Char} {byte : UInt8} (ascii : byte.toNat < 128)
    (member : byte ∈ String.utf8EncodeChar c) : c.toNat = byte.toNat := by
  unfold String.utf8EncodeChar at member
  dsimp only at member
  split at member
  · rw [List.mem_singleton.mp member, UInt8.toNat_ofNat']
    change c.val.toNat = c.val.toNat % 256
    omega
  · -- all bytes of a longer encoding have the highest bit
    exfalso
    split_ifs at member <;>
      simp only [List.mem_cons, List.not_mem_nil, or_false] at member <;>
      rcases member with rfl | rfl | rfl | rfl <;>
      simp only [UInt8.toNat_ofNat'] at ascii <;>
      omega

section Pieces

variable {text : String} {before piece after : List Char}

/-- The bytes of a piece stand in the text behind those of what is before it. -/
theorem toUTF8_extract (split : text.toList = before ++ piece ++ after) :
    text.toUTF8.extract (utf8Length before) (utf8Length before + utf8Length piece) =
      (String.ofList piece).toUTF8 := by
  rw [toUTF8_eq, toUTF8_ofList, split, List.append_assoc, bytes_append, bytes_append,
    List.toByteArray_append, List.toByteArray_append]
  have start := ByteArray.extract_append_size_add (a := (bytes before).toByteArray)
    (b := (bytes piece).toByteArray ++ (bytes after).toByteArray) (i := 0) (j := utf8Length piece)
  simp only [List.size_toByteArray, length_bytes, Nat.add_zero] at start
  rw [start]
  exact ByteArray.extract_append_eq_left (by rw [List.size_toByteArray, length_bytes])

theorem slice?_eq_some {last : Nat} (split : text.toList = before ++ piece ++ after)
    (stop : last + 1 = utf8Length before + utf8Length piece) :
    slice? text (utf8Length before) last = some (String.ofList piece) := by
  have whole : text = String.ofList before ++ (String.ofList piece ++ String.ofList after) := by
    rw [← String.ofList_append, ← String.ofList_append, ← List.append_assoc, ← split,
      String.ofList_toList]
  have first : (String.Pos.Raw.mk (utf8Length before)).IsValid text := by
    refine String.Pos.Raw.isValid_iff_exists_append.mpr ⟨_, _, whole, ?_⟩
    rw [String.Pos.Raw.ext_iff, String.byteIdx_rawEndPos, utf8ByteSize_ofList]
  have second : (String.Pos.Raw.mk (last + 1)).IsValid text := by
    refine String.Pos.Raw.isValid_iff_exists_append.mpr
      ⟨_, _, whole.trans String.append_assoc.symm, ?_⟩
    rw [String.Pos.Raw.ext_iff, String.byteIdx_rawEndPos, String.utf8ByteSize_append,
      utf8ByteSize_ofList, utf8ByteSize_ofList, stop]
  rw [slice?, dif_pos ⟨first, second, by omega⟩, Option.some_inj, ← String.toByteArray_inj,
    String.toByteArray_extract, String.offset_pos, String.offset_pos, stop]
  exact toUTF8_extract split

end Pieces

end DecoderTables.Text
