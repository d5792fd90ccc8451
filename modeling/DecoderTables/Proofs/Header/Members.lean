import DecoderTables.Proofs.Header.Functions
import Mathlib.Data.List.DropRight

/-!
The data members of a struct. What stands between the braces of a struct is a list of statements,
and the name that a statement declares is its last one, if a type stands before it.
-/

namespace DecoderTables.Header

/-- The text of a line before a comment that goes up to its end. -/
def uncommented : List Char → List Char
  | [] => []
  | c :: rest => if c = '/' ∧ rest.head? = some '/' then [] else c :: uncommented rest

/-- Whether a text can be a type: brackets are balanced, and outside of them stand names, blanks,
asterisks, ampersands and pairs of colons only. -/
def isTypeFrom (depth : Nat) (colon : Bool) : List Char → Bool
  | [] => depth = 0 && !colon
  | c :: rest =>
      if c = ':' then isTypeFrom depth (!colon) rest
      else if colon = true ∨ c = ';' then false
      else if c ∈ ['<', '(', '['] then isTypeFrom (depth + 1) false rest
      else if c ∈ ['>', ')', ']'] then 0 < depth && isTypeFrom (depth - 1) false rest
      else (0 < depth || isNameChar c || c ∈ [' ', '*', '&']) && isTypeFrom depth false rest

/-- Words that are no names. -/
def keywords : List (List Char) :=
  ["alignas", "alignof", "and", "and_eq", "asm", "auto", "bitand", "bitor", "bool", "break", "case",
    "catch", "char", "char16_t", "char32_t", "class", "compl", "const", "const_cast", "constexpr",
    "continue", "decltype", "default", "delete", "do", "double", "dynamic_cast", "else", "enum",
    "explicit", "export", "extern", "false", "float", "for", "friend", "goto", "if", "inline",
    "int", "long", "mutable", "namespace", "new", "noexcept", "not", "not_eq", "nullptr",
    "operator", "or", "or_eq", "private", "protected", "public", "register", "reinterpret_cast",
    "return", "short", "signed", "sizeof", "static", "static_assert", "static_cast", "struct",
    "switch", "template", "this", "thread_local", "throw", "true", "try", "typedef", "typeid",
    "typename", "union", "unsigned", "using", "virtual", "void", "volatile", "wchar_t", "while",
    "xor", "xor_eq"].map String.toList

/-- Whether a text can stand as a name. -/
def isIdentifier (text : List Char) : Bool :=
  text.head?.any (!·.isDigit) && text.all isNameChar && text ∉ keywords

/-- The names and keywords in a text. -/
def nameWords (text : List Char) : List (List Char) :=
  (text.splitOnP (!isNameChar ·)).filter (!·.isEmpty)

/-- Words of declarations that declare no data member of the struct. -/
def declarationWords : List (List Char) :=
  ["static", "typedef", "using", "friend", "template", "struct", "class", "union", "enum"].map
    String.toList

def isType (text : List Char) : Bool :=
  text.all isFlatChar && isTypeFrom 0 false text && !(nameWords text).isEmpty &&
    (nameWords text).all (· ∉ declarationWords)

/-- The data member that a statement declares. -/
def memberName? (statement : List Char) : Option String :=
  let name := statement.rtakeWhile isNameChar
  if isIdentifier name && isType (statement.rdropWhile isNameChar) then some (String.ofList name)
  else none

/-- The data members that statements declare. Nothing stands behind the last semicolon. -/
def membersOf : List (List Char) → Option (List String)
  | [] => none
  | [rest] => if rest.all (· = ' ') = true then some [] else none
  | statement :: statements => do
      let name ← memberName? statement
      let names ← membersOf statements
      return name :: names

/-- The data members that the lines of a struct declare. -/
def members? (lines : List String) : Option (List String) :=
  membersOf ((lines.flatMap fun line => uncommented line.toList ++ [' ']).splitOn ';')

/-! Blanks around a type. -/

theorem isTypeFrom_concat (text : List Char) (depth : Nat) (colon : Bool) :
    isTypeFrom depth colon (text ++ [' ']) = isTypeFrom depth colon text := by
  induction text generalizing depth colon with
  | nil => cases colon <;> simp [isTypeFrom]
  | cons c text ih => simp only [List.cons_append, isTypeFrom, ih]

theorem nameWords_concat (text : List Char) : nameWords (text ++ [' ']) = nameWords text := by
  rw [nameWords, List.splitOnP_append_cons _ _ (by decide), List.filter_append]
  simp [nameWords]

theorem isType_concat (text : List Char) : isType (text ++ [' ']) = isType text := by
  have flat : isFlatChar ' ' = true := by decide
  rw [isType, isTypeFrom_concat, nameWords_concat]
  simp [isType, flat]

theorem isType_cons (text : List Char) : isType (' ' :: text) = isType text := by
  have flat : isFlatChar ' ' = true := by decide
  have words : nameWords (' ' :: text) = nameWords text := by
    rw [nameWords, List.splitOnP_cons_eq_if_modifyHead, if_pos (by decide)]
    rfl
  simp [isType, isTypeFrom, words, flat]

theorem isType_blanks_append (blanks : Nat) (text : List Char) :
    isType (List.replicate blanks ' ' ++ text) = isType text := by
  induction blanks with
  | zero => rfl
  | succ blanks ih => rw [List.replicate_succ, List.cons_append, isType_cons, ih]

theorem isTypeFrom_of_isType {text : List Char} (known : isType text = true) :
    isTypeFrom 0 false text = true := by
  simp only [isType, Bool.and_eq_true] at known
  exact known.1.1.2

theorem not_mem_of_isTypeFrom {text : List Char} {depth : Nat} {colon : Bool}
    (type : isTypeFrom depth colon text = true) : ';' ∉ text := by
  induction text generalizing depth colon with
  | nil => exact List.not_mem_nil
  | cons c text ih =>
    rw [isTypeFrom] at type
    have other : ';' ≠ c := by
      rintro rfl
      simp at type
    have rest : ∃ depth colon, isTypeFrom depth colon text = true := by
      split_ifs at type
      · exact ⟨_, _, type⟩
      · exact ⟨_, _, type⟩
      · exact ⟨_, _, (Bool.and_eq_true_iff.mp type).2⟩
      · exact ⟨_, _, (Bool.and_eq_true_iff.mp type).2⟩
    obtain ⟨_, _, later⟩ := rest
    simp [other, ih later]

/-! Statements read back. -/

theorem isNamePart_of_isIdentifier {name : String} (known : isIdentifier name.toList = true) :
    IsNamePart name := by
  simp only [isIdentifier, Bool.and_eq_true] at known
  exact List.all_eq_true.mp known.1.2

theorem memberName?_eq (blanks : Nat) {type : List Char} {name : String}
    (known : isType type = true) (identifier : isIdentifier name.toList = true) :
    memberName? (List.replicate blanks ' ' ++ (type ++ ' ' :: name.toList)) = some name := by
  have last : ∀ c ∈ name.toList.reverse, isNameChar c = true :=
    fun c member => isNamePart_of_isIdentifier identifier c (List.mem_reverse.mp member)
  have behind : ∀ front : List Char, (front ++ ' ' :: name.toList).reverse =
      name.toList.reverse ++ ' ' :: front.reverse := fun _ => by simp
  have taken : ∀ front : List Char,
      (front ++ ' ' :: name.toList).rtakeWhile isNameChar = name.toList := by
    intro front
    rw [List.rtakeWhile, behind, List.takeWhile_append_of_pos last,
      List.takeWhile_cons_of_neg (by decide), List.append_nil, List.reverse_reverse]
  have dropped : ∀ front : List Char,
      (front ++ ' ' :: name.toList).rdropWhile isNameChar = front ++ [' '] := by
    intro front
    rw [List.rdropWhile, behind, List.dropWhile_append_of_pos last,
      List.dropWhile_cons_of_neg (by decide), List.reverse_cons, List.reverse_reverse]
  rw [memberName?, ← List.append_assoc, taken, dropped, List.append_assoc, isType_blanks_append,
    isType_concat, identifier, known, String.ofList_toList]
  rfl

/-- A statement at the beginning of a text declares the first data member. -/
theorem membersOf_statement (blanks : Nat) {type : List Char} {name : String}
    (known : isType type = true) (identifier : isIdentifier name.toList = true)
    (rest : List Char) :
    membersOf ((List.replicate blanks ' ' ++
        (type ++ ' ' :: (name.toList ++ ';' :: rest))).splitOn ';') =
      (membersOf (rest.splitOn ';')).map (name :: ·) := by
  have free : ';' ∉ List.replicate blanks ' ' ++ (type ++ ' ' :: name.toList) := by
    have inType : ';' ∉ type := not_mem_of_isTypeFrom (isTypeFrom_of_isType known)
    have inName : ';' ∉ name.toList := fun member =>
      absurd (isNamePart_of_isIdentifier identifier _ member) (by decide)
    simp [inType, inName]
  have split : List.replicate blanks ' ' ++ (type ++ ' ' :: (name.toList ++ ';' :: rest)) =
      (List.replicate blanks ' ' ++ (type ++ ' ' :: name.toList)) ++ ';' :: rest := by simp
  obtain ⟨next, others, made⟩ := List.exists_cons_of_ne_nil (List.splitOn_ne_nil ';' rest)
  rw [split, List.splitOn_append_cons_self, List.splitOn_eq_singleton free, made,
    List.singleton_append, membersOf, memberName?_eq blanks known identifier]
  · cases membersOf (next :: others) <;> rfl
  · exact List.cons_ne_nil next others

theorem uncommented_of_isFlat {text : List Char} (flat : ∀ c ∈ text, isFlatChar c = true) :
    uncommented text = text := by
  induction text with
  | nil => rfl
  | cons c text ih =>
    obtain ⟨here, later⟩ := List.forall_mem_cons.mp flat
    have other : c ≠ '/' := by
      rintro rfl
      exact absurd here (by decide)
    rw [uncommented, if_neg (fun both => other both.1), ih later]

/-- The lines that declare the data members of an instruction. -/
def memberLines (instruction : Instruction) : List String :=
  (dataMembers instruction).map fun (name, type) => line 1 (type ++ " " ++ name ++ ";")

/-- The name of each data member is an identifier, and its type can be one. -/
def Declarable (members : List (String × String)) : Prop :=
  ∀ member ∈ members, isIdentifier member.1.toList = true ∧ isType member.2.toList = true

theorem isFlat_of_isType {type : String} (known : isType type.toList = true) : IsFlat type := by
  simp only [isType, Bool.and_eq_true] at known
  exact List.all_eq_true.mp known.1.1.1

theorem isFlat_memberLine {name type : String} (identifier : isIdentifier name.toList = true)
    (known : isType type.toList = true) : IsFlat (line 1 (type ++ " " ++ name ++ ";")) := by
  have parts : IsFlat " " ∧ IsFlat ";" := by decide
  exact ((((isFlat_of_isType known).append parts.1).append
    (isNamePart_of_isIdentifier identifier).isFlat).append parts.2).line 1

theorem membersOf_memberLines {members : List (String × String)} (declarable : Declarable members)
    (blanks : Nat) :
    membersOf ((List.replicate blanks ' ' ++ (members.map fun (name, type) =>
        line 1 (type ++ " " ++ name ++ ";")).flatMap fun line =>
          uncommented line.toList ++ [' ']).splitOn ';') = some (members.map (·.1)) := by
  induction members generalizing blanks with
  | nil =>
    have free : ';' ∉ List.replicate blanks ' ' := by simp
    rw [List.map_nil, List.flatMap_nil, List.append_nil, List.splitOn_eq_singleton free, membersOf]
    exact if_pos (by simp)
  | cons member members ih =>
    obtain ⟨name, type⟩ := member
    obtain ⟨⟨identifier, known⟩, later⟩ := List.forall_mem_cons.mp declarable
    have split : ∀ rest, List.replicate blanks ' ' ++
          ((line 1 (type ++ " " ++ name ++ ";")).toList ++ [' '] ++ rest) =
        List.replicate (blanks + 2) ' ' ++
          (type.toList ++ ' ' :: (name.toList ++ ';' :: (List.replicate 1 ' ' ++ rest))) := by
      intro rest
      simp [toList_line_one, List.replicate_add]
    rw [List.map_cons, List.flatMap_cons,
      uncommented_of_isFlat (isFlat_memberLine identifier known), split,
      membersOf_statement _ known identifier, ih later]
    rfl

def idMember : String := line 1 "InstrId id;          // base_type: u8"

def flagsMember : String := line 1 "InstrFlagsSet flags; // base_type: u8"

/-- Every struct begins with the same two members, and those of its instruction follow. -/
theorem members?_structLines {instruction : Instruction}
    (declarable : Declarable (dataMembers instruction)) :
    members? (idMember :: flagsMember :: memberLines instruction) =
      some ("id" :: "flags" :: (dataMembers instruction).map (·.1)) := by
  have first : uncommented idMember.toList ++ [' '] = List.replicate 2 ' ' ++
      ("InstrId".toList ++ ' ' :: ("id".toList ++ ';' :: List.replicate 11 ' ')) := by
    decide +kernel
  have second : uncommented flagsMember.toList ++ [' '] = List.replicate 2 ' ' ++
      ("InstrFlagsSet".toList ++ ' ' :: ("flags".toList ++ ';' :: List.replicate 2 ' ')) := by
    decide +kernel
  have types : isType "InstrId".toList = true ∧ isType "InstrFlagsSet".toList = true := by decide
  have names : isIdentifier "id".toList = true ∧ isIdentifier "flags".toList = true := by
    decide +kernel
  rw [members?, List.flatMap_cons, List.flatMap_cons, first, second]
  simp only [List.append_assoc, List.cons_append]
  rw [membersOf_statement 2 types.1 names.1, ← List.append_assoc (List.replicate 11 ' '),
    List.replicate_append_replicate, membersOf_statement 13 types.2 names.2]
  exact congrArg (fun found => (found.map ("flags" :: ·)).map ("id" :: ·))
    (membersOf_memberLines declarable 2)

end DecoderTables.Header
