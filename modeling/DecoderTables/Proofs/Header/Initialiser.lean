import DecoderTables.Proofs.Header.Declarations

/-!
What the two headers say of a decoder: one declares the enumerator and the struct of its
instruction, the other uses the enumerator and names the members of the struct by their places.
-/

namespace DecoderTables
open Identifier Json

namespace Header

/-! What the lines of a function say. -/

def tagForm : Form := ⟨line 1 "const InstrId iid\x7bInstrId::", "\x7d;"⟩

/-- The enumerator that a function initialises its instruction with. -/
def usedTag? (body : List String) : Option String :=
  body.findSome? tagForm.read?

/-- The struct that a function returns, with what stands at the places of its members. -/
structure Initialiser where
  struct : String
  members : List String
deriving DecidableEq

def returnForm : Form := ⟨line 1 "return Ok(Instr\x7b", "\x7d\x7d);"⟩

def withoutBlanks (text : List Char) : String :=
  String.ofList (text.filter (· ≠ ' '))

/-- The initialiser in a line that returns an instruction. -/
def initialiser? (text : String) : Option Initialiser := do
  let inner ← returnForm.read? text
  let struct := inner.toList.takeWhile (· ≠ '\x7b')
  let items := (inner.toList.dropWhile (· ≠ '\x7b')).drop 1
  return ⟨String.ofList struct, (items.splitOn ',').map withoutBlanks⟩

theorem line_append (level : Nat) (first second : String) :
    line level (first ++ second) = line level first ++ second :=
  (String.append_assoc ..).symm

theorem usedTag?_cons (tag : String) (lines : List String) :
    usedTag? (unusedAccess :: tagLine tag :: lines) = some tag := by
  have other : tagForm.read? unusedAccess = none := by decide
  have text : tagLine tag = tagForm.first ++ (tag ++ tagForm.last) := by
    rw [tagLine, String.append_assoc, line_append]
    rfl
  rw [usedTag?, List.findSome?_cons, other, text, List.findSome?_cons, read?_append]

theorem withoutBlanks_toList {name : String} (known : IsNamePart name) :
    withoutBlanks name.toList = name := by
  have kept : ∀ c ∈ name.toList, decide (c ≠ ' ') = true := by
    intro c member
    apply decide_eq_true
    rintro rfl
    exact known.not_mem (by decide) member
  rw [withoutBlanks, List.filter_eq_self.mpr kept, String.ofList_toList]

/-- A blank behind a comma says nothing. -/
theorem map_withoutBlanks_splitOn_cons (text : List Char) :
    ((' ' :: text).splitOn ',').map withoutBlanks = (text.splitOn ',').map withoutBlanks := by
  obtain ⟨item, items, made⟩ := List.exists_cons_of_ne_nil (List.splitOn_ne_nil ',' text)
  rw [List.splitOn_cons_eq_if_modifyHead, made]
  rfl

theorem map_withoutBlanks_intercalate {names : List String} (nonempty : names ≠ [])
    (known : ∀ name ∈ names, IsNamePart name) :
    ((", ".intercalate names).toList.splitOn ',').map withoutBlanks = names := by
  induction names with
  | nil => exact absurd rfl nonempty
  | cons name names ih =>
    obtain ⟨here, later⟩ := List.forall_mem_cons.mp known
    have free : ',' ∉ name.toList := here.not_mem (by decide)
    cases names with
    | nil =>
      rw [String.intercalate_singleton, List.splitOn_eq_singleton free, List.map_singleton,
        withoutBlanks_toList here]
    | cons next names =>
      have text : (", ".intercalate (name :: next :: names)).toList =
          name.toList ++ ',' :: ' ' :: (", ".intercalate (next :: names)).toList := by
        rw [String.intercalate_cons_cons]
        simp
      rw [text, List.splitOn_append_cons_self, List.splitOn_eq_singleton free,
        List.singleton_append, List.map_cons, withoutBlanks_toList here,
        map_withoutBlanks_splitOn_cons, ih (List.cons_ne_nil next names) later]

/-- The line that returns an instruction reads back to its struct and its members. -/
theorem initialiser?_returnLine {structName : String} {members : List String}
    (struct : IsNamePart structName) (names : ∀ name ∈ members, IsNamePart name) :
    initialiser? (returnLine structName members) =
      some ⟨structName, "iid" :: "flags" :: members⟩ := by
  let items := ", ".intercalate ("iid" :: "flags" :: members)
  have text : returnLine structName members =
      returnForm.first ++ ((structName ++ "\x7b" ++ items) ++ returnForm.last) := by
    simp only [returnLine, String.append_assoc, line_append]
    rfl
  have chars : (structName ++ "\x7b" ++ items).toList =
      structName.toList ++ '\x7b' :: items.toList := by simp
  have inside : ∀ c ∈ structName.toList, decide (c ≠ '\x7b') = true := by
    intro c member
    apply decide_eq_true
    rintro rfl
    exact struct.not_mem (by decide) member
  have known : ∀ name ∈ "iid" :: "flags" :: members, IsNamePart name := by
    rw [List.forall_mem_cons, List.forall_mem_cons]
    exact ⟨by decide, by decide, names⟩
  have listed := map_withoutBlanks_intercalate (List.cons_ne_nil _ _) known
  rw [initialiser?, text, read?_append, Option.bind_eq_bind, Option.bind_some, chars,
    List.takeWhile_append_of_pos inside, List.takeWhile_cons_of_neg (by simp),
    List.dropWhile_append_of_pos inside, List.dropWhile_cons_of_neg (by simp),
    List.drop_one, List.tail_cons, List.append_nil]
  exact congrArg some (congrArg₂ Initialiser.mk String.ofList_toList listed)

/-! The function of a decoder begins with its enumerator and ends with its initialiser. -/

theorem usedTag?_cut_decoderBody (instructions : List Instruction) {decoder : Decoder}
    (tag : IsFlat decoder.enumTag) :
    usedTag? (cut (decoderBody instructions decoder)) = some decoder.enumTag := by
  obtain ⟨rest, split⟩ : ∃ rest, decoderBody instructions decoder =
      [unusedAccess, tagLine decoder.enumTag] ++ rest := ⟨_, rfl⟩
  have free : ∀ text ∈ [unusedAccess, tagLine decoder.enumTag], '\n' ∉ text.toList := by
    have access : '\n' ∉ unusedAccess.toList := by decide +kernel
    have inside := tag.not_mem
    rw [List.forall_mem_cons, List.forall_mem_singleton]
    exact ⟨access, by simpa [tagLine, toList_line_one] using inside⟩
  rw [split, cut_append, cut_of_free free]
  exact usedTag?_cons decoder.enumTag (cut rest)

theorem getLast?_cut_decoderBody {instructions : List Instruction} {decoder : Decoder}
    (struct : IsFlat decoder.structName)
    (members : ∀ name ∈ initialised instructions decoder, IsFlat name) :
    (cut (decoderBody instructions decoder)).getLast? =
      some (returnLine decoder.structName (initialised instructions decoder)) := by
  obtain ⟨front, split⟩ : ∃ front, decoderBody instructions decoder =
      front ++ ["", returnLine decoder.structName (initialised instructions decoder)] := ⟨_, rfl⟩
  have free : ∀ text ∈ ["", returnLine decoder.structName (initialised instructions decoder)],
      '\n' ∉ text.toList := by
    have inside := struct.not_mem
    have listed : IsFlat (", ".intercalate
        ("iid" :: "flags" :: initialised instructions decoder)) := by
      apply isFlat_intercalate
      rw [List.forall_mem_cons, List.forall_mem_cons]
      exact ⟨by decide, by decide, members⟩
    have items := listed.not_mem
    rw [List.forall_mem_cons, List.forall_mem_singleton]
    refine ⟨by decide, ?_⟩
    rw [returnLine, toList_line_one]
    simp only [String.toList_append, List.mem_cons, List.mem_append, inside, items]
    decide
  rw [split, cut_append, cut_of_free free, List.getLast?_append]
  rfl

/-! Both headers. -/

/-- What the names of a document have to be so that they stand for themselves in the headers: parts
of names, and for the data members identifiers behind their types. -/
structure Named (document : Document) : Prop where
  instructions : ∀ entry ∈ document.instructions, IsFlat entry.1 ∧ IsNamePart (pascalCase entry.1)
  members : ∀ entry ∈ document.instructions, Declarable (dataMembers (.ofEntry entry.1 entry.2))
  decoders : ∀ entry ∈ document.decoders, IsNamePart (pascalCase entry.1)
  splitters : ∀ entry ∈ document.splitters, IsNamePart entry.1

/-- The declarations of one header and the definitions of the other agree on the function of a
decoder: it is defined once, it uses an enumerator and a struct that are each declared once, and
behind its number and its flags it names the members of the struct in the order of their
declarations. -/
structure Agreed (declarations definitions callback : String) (instruction : Instruction) :
    Prop where
  defined : (definedNames definitions).count callback = 1
  tag : usedTag? (functionBody callback definitions) = some instruction.enumTag
  enumerated : (instructionTags declarations).count instruction.enumTag = 1
  declared : (structNames declarations).count instruction.structName = 1
  members : members? (structBody instruction.structName declarations) =
    some ("id" :: "flags" :: fieldNames instruction.fields)
  initialised : (functionBody callback definitions).getLast?.bind initialiser? =
    some ⟨instruction.structName, "iid" :: "flags" :: fieldNames instruction.fields⟩

variable {document : Document} {tables : Tables} {options : HeaderOptions}

namespace Named

variable (named : Named document) (built : Tables.Built document tables)

include named built

theorem declarable {instruction : Instruction} (member : instruction ∈ tables.instructions) :
    Declarable (dataMembers instruction) := by
  obtain ⟨entry, listed, rfl⟩ := exists_entry_of_mem_instructions built member
  exact named.members entry listed

theorem isNamePart {instruction : Instruction} (member : instruction ∈ tables.instructions) :
    IsNamePart instruction.enumTag ∧ IsNamePart instruction.structName := by
  obtain ⟨entry, listed, rfl⟩ := exists_entry_of_mem_instructions built member
  have name := (named.instructions entry listed).2
  exact ⟨IsNamePart.append (by decide) name, IsNamePart.append (by decide) name⟩

theorem contained : ∀ instruction ∈ tables.instructions, Contained instruction := by
  intro instruction member
  have parts := named.isNamePart built member
  refine ⟨?_, parts.1.isFlat, parts.2.isFlat, ?_⟩
  · obtain ⟨entry, listed, rfl⟩ := exists_entry_of_mem_instructions built member
    exact (named.instructions entry listed).1
  · apply closed_of_forall
    rw [memberLines, List.forall_mem_map]
    intro member declared
    have known := named.declarable built ‹_› member declared
    exact (isFlat_memberLine known.1 known.2).closed

theorem isFlat_callback : ∀ name ∈ callableNames tables, IsFlat name := by
  rw [forall_mem_callableNames_iff built]
  refine ⟨by decide, ?_, ?_⟩
  · intro entry listed
    exact (IsNamePart.append (named.decoders entry listed) (by decide)).isFlat
  · intro entry listed
    exact (IsNamePart.append (by decide) (named.splitters entry listed)).isFlat

end Named

/-- Where nothing leaves its place, the headers agree on the function of a decoder. -/
theorem agreed_of_described (built : Tables.Built document tables)
    (enclosed : Enclosed document options) (named : Named document) {decoder : Decoder}
    (member : decoder ∈ tables.decoders) {entry : DecoderEntry} {instruction : Instruction}
    (known : instruction ∈ tables.instructions)
    (described : Described tables.instructions decoder entry instruction) :
    Agreed (instructions tables options) (textOf (decoderHeaderLines tables options))
      decoder.callback instruction := by
  have contained := named.contained built
  have types := clausesOf_instructions enclosed.scope.not_mem contained
  have functions := clausesOf_decoderHeader built enclosed (named.isFlat_callback built)
  have body := functionBody_decoder functions built member
  have declarable := named.declarable built known
  obtain ⟨tag, struct⟩ := named.isNamePart built known
  have names : ∀ name ∈ fieldNames instruction.fields, IsNamePart name := by
    rw [← names_dataMembers, List.forall_mem_map]
    exact fun member declared => isNamePart_of_isIdentifier (declarable member declared).1
  have lines : cut (fieldLines instruction) = fieldLines instruction := by
    have builtIn : '\n' ∉ idMember.toList ∧ '\n' ∉ flagsMember.toList := by decide +kernel
    apply cut_of_free
    rw [fieldLines, List.forall_mem_cons, List.forall_mem_cons, memberLines, List.forall_mem_map]
    exact ⟨builtIn.1, builtIn.2, fun member declared =>
      (isFlat_memberLine (declarable member declared).1 (declarable member declared).2).not_mem⟩
  have returned : (cut (decoderBody tables.instructions decoder)).getLast? =
      some (returnLine instruction.structName (fieldNames instruction.fields)) := by
    rw [← described.structName] at struct ⊢
    rw [← described.initialised_eq] at names ⊢
    exact getLast?_cut_decoderBody struct.isFlat fun name inside => (names name inside).isFlat
  refine ⟨?_, ?_, ?_, ?_, ?_, ?_⟩
  · rw [definedNames_of_clauses functions]
    apply List.count_eq_one_of_mem built.nodup_functions
    exact List.mem_append_left _ (List.mem_append_left _
      (List.mem_cons_of_mem _ (List.mem_map_of_mem member)))
  · rw [← described.enumTag] at tag ⊢
    rw [body, usedTag?_cut_decoderBody _ tag.isFlat]
  · rw [instructionTags_of_clauses types contained]
    exact List.count_eq_one_of_mem built.nodup_enumTags
      (List.mem_append_left _ (List.mem_map_of_mem known))
  · rw [structNames_of_clauses types]
    exact List.count_eq_one_of_mem built.nodup_structNames (List.mem_map_of_mem known)
  · rw [structBody_of_clauses types built known, lines, ← names_dataMembers]
    exact members?_structLines declarable
  · rw [body, returned]
    exact initialiser?_returnLine struct names

/-- An instruction with members of several types, for a decoder with a body, and one whose fields
are no object. -/
def memberDocument : Document where
  instructions := [("ldr_imm", [("fields", .object [("t", .string "u8"), ("imm", .null),
      ("shift", .string "const std::array<u8, 2> &")])]),
    ("nop", [("fields", .string "none")])]
  decoders := [("ldr_imm_t1", ⟨"ldr_imm", ["set_flags"], none, [("body", .array [
      .string "u8 t = 0; // the \x7d of a comment isn't code",
      .string "if (rinstr.low == 0) \x7b",
      .string "  t = 1;",
      .string "\x7d"])]⟩),
    ("nop_t1", ⟨"nop", [], none, []⟩)]
  splitters := []
  opcodes := []

theorem enclosed_members : Enclosed memberDocument ⟨"microemu", 3, "instr.h"⟩ where
  scope := by decide
  instrHeader := by decide
  instructions := by decide +kernel
  members := by decide +kernel
  flags := by decide +kernel
  decoders := by decide +kernel
  splitters := by decide +kernel

theorem named_members : Named memberDocument where
  instructions := by decide +kernel
  members := by
    unfold Declarable
    decide +kernel
  decoders := by decide +kernel
  splitters := by decide +kernel

/-- An instruction whose data member has a type that declares another one before it. -/
def splitInstruction : Instruction :=
  .ofEntry "mov" [("fields", .object [("a", .string "u8 x;\n  u8")])]

def splitDocument : Document :=
  { Document.empty with
    instructions := [("mov", splitInstruction.fields)]
    decoders := [("mov_t1", ⟨"mov", [], none, []⟩)] }

theorem enclosed_split : Enclosed splitDocument {} where
  scope := by decide +kernel
  instrHeader := by decide +kernel
  instructions := by decide
  members := by decide
  flags := by decide
  decoders := by decide
  splitters := by decide

theorem instructions_split (built : Tables.Built splitDocument tables) :
    tables.instructions = [splitInstruction] := built.instructions

theorem callableNames_split (built : Tables.Built splitDocument tables) :
    callableNames tables = ["InvalidInstrDecoder", "MovT1Decoder"] := by
  rw [callableNames, built.decoderCallbacks_eq, built.splitterCallbacks_eq,
    built.splitterNames_eq]
  decide

/-- The struct has two members of its own. -/
theorem members?_split (built : Tables.Built splitDocument tables) :
    members? (structBody "InstrMov" (instructions tables {})) =
      some ["id", "flags", "x", "a"] := by
  have contained : ∀ instruction ∈ tables.instructions, Contained instruction := by
    rw [instructions_split built, List.forall_mem_singleton]
    exact ⟨by decide, by decide, by decide, by decide +kernel⟩
  have known : splitInstruction ∈ tables.instructions := by
    rw [instructions_split built]
    exact List.mem_singleton_self _
  have struct : splitInstruction.structName = "InstrMov" := by decide
  have types : clausesOf (instructions tables {}) = typeClauses tables {} :=
    clausesOf_instructions enclosed_split.scope.not_mem contained
  have body := structBody_of_clauses types built known
  rw [struct] at body
  rw [body]
  decide +kernel

/-- The initialiser names one. -/
theorem initialiser?_split (built : Tables.Built splitDocument tables) {decoder : Decoder}
    (member : decoder ∈ tables.decoders) :
    (functionBody decoder.callback (textOf (decoderHeaderLines tables {}))).getLast?.bind
        initialiser? = some ⟨"InstrMov", ["iid", "flags", "a"]⟩ := by
  obtain ⟨entry, _, instruction, known, described⟩ := exists_described built member
  rw [instructions_split built, List.mem_singleton] at known
  have flat : ∀ name ∈ callableNames tables, IsFlat name := by
    rw [callableNames_split built]
    decide
  have functions := clausesOf_decoderHeader built enclosed_split flat
  have struct : decoder.structName = "InstrMov" := by
    rw [described.structName, known]
    decide
  have members : initialised tables.instructions decoder = ["a"] := by
    rw [described.initialised_eq, known]
    decide
  have flatStruct : IsFlat decoder.structName := by
    rw [struct]
    decide
  have flatMembers : ∀ name ∈ initialised tables.instructions decoder, IsFlat name := by
    rw [members]
    decide
  rw [functionBody_decoder functions built member,
    getLast?_cut_decoderBody flatStruct flatMembers, struct, members]
  exact initialiser?_returnLine (by decide) (by decide)

end Header

end DecoderTables
