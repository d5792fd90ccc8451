import DecoderTables.Header.Decoders
import DecoderTables.Header.Instructions

/-!
The names that the two headers declare in their namespace, read off the lines that make up the
headers. A declaration is a line that begins with a keyword; what stands inside of a type or a
function is indented and declares nothing there.
-/

namespace DecoderTables.Header

/-- The beginning and the end of a line that declares the name between them. -/
structure Form where
  first : String
  last : String

def structForm : Form := ⟨"struct ", " \x7b"⟩
def unionForm : Form := ⟨"union ", " \x7b"⟩
def enumForm : Form := ⟨"enum class ", " : u8 \x7b"⟩
def functionForm : Form :=
  ⟨"static Result<Instr> ", "(const RawInstr &rinstr, TCpuAccessor &cpua) \x7b"⟩

def forms : List Form := [structForm, unionForm, enumForm, functionForm]

def Form.read? (form : Form) (line : String) : Option String :=
  let rest := line.toList.drop form.first.toList.length
  if form.first.toList <+: line.toList ∧ form.last.toList <:+ rest then
    some (String.ofList (rest.take (rest.length - form.last.toList.length)))
  else none

/-- The type or the function that a line declares in the namespace. -/
def declared? (line : String) : Option String :=
  forms.findSome? (·.read? line)

def declaredNames (lines : List String) : List String :=
  lines.filterMap declared?

/-- Whether two texts differ at a place that both have. -/
def clash (first second : String) : Bool :=
  (first.toList.zip second.toList).any fun (a, b) => a != b

theorem not_isPrefix_of_clash (start rest first : List Char)
    (differ : (start.zip first).any (fun (a, b) => a != b) = true) :
    ¬first <+: start ++ rest := by
  induction start generalizing first with
  | nil => simp at differ
  | cons a start ih =>
    cases first with
    | nil => simp at differ
    | cons b first =>
      rw [List.cons_append, List.cons_prefix_cons]
      intro given
      obtain ⟨rfl, later⟩ := given
      exact ih first (by simpa using differ) later

theorem read?_of_clash (form : Form) (start rest : String)
    (differ : clash start form.first = true) : form.read? (start ++ rest) = none := by
  have absent := not_isPrefix_of_clash start.toList rest.toList form.first.toList differ
  rw [← String.toList_append] at absent
  exact if_neg fun both => absent both.1

theorem read?_append (form : Form) (name : String) :
    form.read? (form.first ++ (name ++ form.last)) = some name := by
  unfold Form.read?
  simp only [String.toList_append, List.drop_left, List.prefix_append, List.suffix_append,
    and_self, ↓reduceIte, List.length_append, Nat.add_sub_cancel, List.take_left,
    String.ofList_toList]

theorem declared?_of_clash (start rest : String)
    (differ : forms.all (fun form => clash start form.first) = true) :
    declared? (start ++ rest) = none := by
  rw [declared?, List.findSome?_eq_none_iff]
  intro form member
  exact read?_of_clash form start rest (List.all_eq_true.mp differ form member)

@[simp] theorem declaredNames_nil : declaredNames [] = [] := rfl

@[simp] theorem declaredNames_append (left right : List String) :
    declaredNames (left ++ right) = declaredNames left ++ declaredNames right :=
  List.filterMap_append

theorem declaredNames_cons_of_none {text : String} (none : declared? text = none)
    (lines : List String) : declaredNames (text :: lines) = declaredNames lines :=
  List.filterMap_cons_none none

theorem declaredNames_cons_of_some {text name : String} (some : declared? text = some name)
    (lines : List String) : declaredNames (text :: lines) = name :: declaredNames lines :=
  List.filterMap_cons_some some

theorem declaredNames_map_of_none {α : Type} (render : α → String) (items : List α)
    (none : ∀ item, declared? (render item) = none) : declaredNames (items.map render) = [] := by
  rw [declaredNames, List.filterMap_eq_nil_iff]
  intro text member
  obtain ⟨item, _, rfl⟩ := List.mem_map.mp member
  exact none item

/-- Nothing indented is a declaration of the namespace. -/
@[simp] theorem declared?_line (level : Nat) (text : String) :
    declared? (line (level + 1) text) = none := by
  have start : indent (level + 1) = "  " ++ indent level := by
    unfold indent
    rw [show 2 * (level + 1) = 2 + 2 * level by omega, ← List.replicate_append_replicate,
      String.ofList_append]
    rfl
  rw [line, start, String.append_assoc]
  exact declared?_of_clash _ _ (by decide)

theorem declared?_of_form (before after : List Form) (form : Form) (name : String)
    (all : forms = before ++ form :: after)
    (apart : before.all (fun other => clash form.first other.first) = true) :
    declared? (form.first ++ (name ++ form.last)) = some name := by
  have earlier : before.findSome? (·.read? (form.first ++ (name ++ form.last))) = none := by
    rw [List.findSome?_eq_none_iff]
    intro other member
    exact read?_of_clash other _ _ (List.all_eq_true.mp apart other member)
  rw [declared?, all, List.findSome?_append, earlier, List.findSome?_cons, read?_append]
  rfl

theorem declared?_struct (name : String) :
    declared? ("struct " ++ name ++ " \x7b") = some name := by
  rw [String.append_assoc]
  exact declared?_of_form [] [unionForm, enumForm, functionForm] structForm name rfl rfl

theorem declared?_function (name : String) :
    declared? ("static Result<Instr> " ++ name ++
      "(const RawInstr &rinstr, TCpuAccessor &cpua) \x7b") = some name := by
  rw [String.append_assoc]
  exact declared?_of_form [structForm, unionForm, enumForm] [] functionForm name rfl
    (by decide)

@[simp] theorem declaredNames_cons_line (level : Nat) (text : String) (lines : List String) :
    declaredNames (line (level + 1) text :: lines) = declaredNames lines :=
  declaredNames_cons_of_none (declared?_line level text) lines

@[simp] theorem declaredNames_cons_empty (lines : List String) :
    declaredNames ("" :: lines) = declaredNames lines :=
  declaredNames_cons_of_none (by decide) lines

@[simp] theorem declaredNames_cons_brace (lines : List String) :
    declaredNames ("\x7d" :: lines) = declaredNames lines :=
  declaredNames_cons_of_none (by decide) lines

@[simp] theorem declaredNames_cons_closing (lines : List String) :
    declaredNames ("\x7d;" :: lines) = declaredNames lines :=
  declaredNames_cons_of_none (by decide) lines

@[simp] theorem declaredNames_map_line {α : Type} (level : Nat) (render : α → String)
    (items : List α) : declaredNames (items.map fun item => line (level + 1) (render item)) = [] :=
  declaredNames_map_of_none _ items fun _ => declared?_line level _

@[simp] theorem declaredNames_functionHead (name : String) :
    declaredNames (functionHead name) = [name] := by
  unfold functionHead
  rw [declaredNames_cons_of_none (by decide),
    declaredNames_cons_of_some (declared?_function name), declaredNames_nil]

@[simp] theorem declaredNames_bodyLines (level : Nat) (body : List String) :
    declaredNames (bodyLines (level + 1) body) = [] := by
  apply declaredNames_map_of_none
  intro text
  split
  · decide
  · exact declared?_line level text

@[simp] theorem declaredNames_functionLines (name : String) (inner : List String) :
    declaredNames (functionLines name inner) = name :: declaredNames inner := by
  simp [functionLines]

@[simp] theorem declaredNames_decoderLines (instructions : List Instruction) (decoder : Decoder) :
    declaredNames (decoderLines instructions decoder) = [decoder.callback] := by
  simp [decoderLines, decoderBody, apply_ite declaredNames, unusedAccess, unusedInstr, returnLine]

@[simp] theorem declaredNames_splitterLines (splitter : Splitter) :
    declaredNames (splitterLines splitter) = [splitter.callback] := by
  simp [splitterLines, splitterBody, apply_ite declaredNames, unusedInstr, unknownOpcode]

@[simp] theorem declaredNames_invalidLines :
    declaredNames invalidLines = [Identifier.invalidDecoder] := by
  simp [invalidLines, unusedInstr, unusedAccess, unknownOpcode]

theorem declaredNames_flatMap {α : Type} (render : α → List String) (items : List α) :
    declaredNames (items.flatMap render) = items.flatMap fun item => declaredNames (render item) :=
  List.filterMap_flatMap

@[simp] theorem declaredNames_callLines (opcodes : List SelectorEntry) :
    declaredNames (callLines opcodes) = ["call_decoder"] := by
  simp [callLines, callBody, caseLines, callLine, defaultLines, declaredNames_flatMap]

@[simp] theorem declaredNames_structLines (instruction : Instruction) :
    declaredNames (structLines instruction) = [instruction.structName] := by
  simp [structLines, declaredNames_cons_of_some (declared?_struct instruction.structName)]

@[simp] theorem declaredNames_enumLines (instructions : List Instruction) :
    declaredNames (enumLines instructions) = ["InstrId"] := by
  have head : declared? "enum class InstrId : u8 \x7b" = some "InstrId" := by decide
  simp [enumLines, declaredNames_cons_of_some head]

@[simp] theorem declaredNames_unionLines (instructions : List Instruction) :
    declaredNames (unionLines instructions) = ["Instr"] := by
  have head : declared? "union Instr \x7b" = some "Instr" := by decide
  simp [unionLines, declaredNames_cons_of_some head]

@[simp] theorem declaredNames_includes (paths : List String) :
    declaredNames (includes paths) = [] := by
  apply declaredNames_map_of_none
  intro path
  rw [String.append_assoc]
  exact declared?_of_clash _ _ (by decide)

theorem declared?_namespace (scope : String) :
    declared? ("namespace " ++ scope ++ " \x7b") = none := by
  rw [String.append_assoc]
  exact declared?_of_clash _ _ (by decide)

theorem declared?_closing (scope : String) : declared? ("\x7d // namespace " ++ scope) = none :=
  declared?_of_clash _ _ (by decide)

theorem declared?_selectorLine (name : String) (bit : UInt32) :
    declared? (selectorLine name bit) = none := by
  unfold selectorLine
  rw [String.append_assoc, String.append_assoc, String.append_assoc]
  exact declared?_of_clash _ _ (by decide)

/-- Where each item declares one name, all items declare their names in the same order. -/
theorem declaredNames_flatMap_of_single {α : Type} (render : α → List String) (name : α → String)
    (single : ∀ item, declaredNames (render item) = [name item]) (items : List α) :
    declaredNames (items.flatMap render) = items.map name := by
  rw [declaredNames_flatMap, List.map_eq_flatMap]
  exact congrArg (items.flatMap ·) (funext single)

/-- The types of the instruction header: the enumeration, the structs and the union. -/
theorem declaredNames_instructionLines (tables : Tables) (options : HeaderOptions) :
    declaredNames (instructionLines tables options) =
      "InstrId" :: tables.instructions.map (·.structName) ++ ["Instr"] := by
  have preamble : declaredNames [note, "#pragma once", ""] = [] := by decide
  have structs := declaredNames_flatMap_of_single structLines (·.structName)
    declaredNames_structLines tables.instructions
  simp only [instructionLines, declaredNames_append, preamble, structs, declaredNames_includes,
    declaredNames_enumLines, declaredNames_unionLines, declaredNames_cons_empty,
    declaredNames_cons_of_none (declared?_namespace options.scope),
    declaredNames_cons_of_none (declared?_closing options.scope), declaredNames_nil]
  simp

/-- The functions of the decoder header: one for invalid instructions, the callbacks of the
decoders, those of the splitters, and the dispatch. -/
theorem declaredNames_decoderHeaderLines (tables : Tables) (options : HeaderOptions) :
    declaredNames (decoderHeaderLines tables options) =
      Identifier.invalidDecoder :: tables.decoders.map (·.callback) ++
        tables.splitters.map (·.callback) ++ ["call_decoder"] := by
  have preamble : declaredNames [note, "#pragma once", ""] = [] := by decide
  have system : declared? "#include <assert.h>" = none ∧ declared? "#include <cstdint>" = none := by
    decide
  have aliases : declared? "using Bm8 = BitManip<u8>;" = none ∧
      declared? "using Bm16 = BitManip<u16>;" = none ∧
      declared? "using Bm32 = BitManip<u32>;" = none := by decide
  have decoders := declaredNames_flatMap_of_single
    (fun decoder => "" :: decoderLines tables.instructions decoder) (·.callback) (by simp)
    tables.decoders
  have splitters := declaredNames_flatMap_of_single (fun splitter => "" :: splitterLines splitter)
    (·.callback) (by simp) tables.splitters
  simp only [decoderHeaderLines, declaredNames_append, preamble, decoders, splitters,
    declaredNames_includes, declaredNames_invalidLines, declaredNames_callLines,
    declaredNames_cons_empty, declaredNames_cons_of_none system.1,
    declaredNames_cons_of_none system.2, declaredNames_cons_of_none aliases.1,
    declaredNames_cons_of_none aliases.2.1, declaredNames_cons_of_none aliases.2.2,
    declaredNames_cons_of_none (declared?_namespace options.scope),
    declaredNames_cons_of_none (declared?_closing options.scope),
    declaredNames_cons_of_none (declared?_selectorLine _ _), declaredNames_nil]
  simp

/-! The enumerators of the instruction header stand in lines of their own, each but the last with a
comma behind it. -/

def enumHead : String := "enum class InstrId : u8 \x7b"

/-- The enumerator of a line, less its indentation and its comma. -/
def enumerator (line : String) : String :=
  let text := line.toList.drop 2
  String.ofList (if text.getLast? = some ',' then text.dropLast else text)

/-- The enumerators between the head of the enumeration and its end. -/
def enumerators (lines : List String) : List String :=
  (((lines.dropWhile (· ≠ enumHead)).drop 1).takeWhile (· ≠ "\x7d;")).map enumerator

theorem toList_line_one (text : String) : (line 1 text).toList = ' ' :: ' ' :: text.toList := by
  simp [line, indent]

theorem enumerator_line_comma (tag : String) : enumerator (line 1 (tag ++ ",")) = tag := by
  simp [enumerator, toList_line_one]

theorem line_ne (level : Nat) (text : String) {other : String}
    (start : other.toList.head? ≠ some ' ') : line (level + 1) text ≠ other := by
  rintro rfl
  apply start
  simp [line, indent, Nat.mul_add, List.replicate_succ]

theorem enumerators_append (before inner after : List String)
    (outside : declaredNames before = []) (inside : ∀ text ∈ inner, text ≠ "\x7d;") :
    enumerators (before ++ (enumHead :: (inner ++ "\x7d;" :: after))) = inner.map enumerator := by
  have head : declared? enumHead = some "InstrId" := by decide
  have skipped : ∀ text ∈ before, decide (text ≠ enumHead) = true := by
    intro text member
    apply decide_eq_true
    intro same
    have none := List.filterMap_eq_nil_iff.mp outside text member
    rw [same, head] at none
    cases none
  have kept : ∀ text ∈ inner, decide (text ≠ "\x7d;") = true :=
    fun text member => decide_eq_true (inside text member)
  unfold enumerators
  rw [List.dropWhile_append_of_pos skipped, List.dropWhile_cons_of_neg (by simp), List.drop_one,
    List.tail_cons, List.takeWhile_append_of_pos kept, List.takeWhile_cons_of_neg (by simp),
    List.append_nil]

theorem enumerators_instructionLines (tables : Tables) (options : HeaderOptions) :
    enumerators (instructionLines tables options) =
      tables.instructions.map (·.enumTag) ++ ["kInvalid"] := by
  have preamble : declaredNames [note, "#pragma once", ""] = [] := by decide
  have outside : declaredNames ([note, "#pragma once", ""] ++ includes instructionIncludes ++
      ["", "namespace " ++ options.scope ++ " \x7b", ""]) = [] := by
    simp only [declaredNames_append, preamble, declaredNames_includes, declaredNames_cons_empty,
      declaredNames_cons_of_none (declared?_namespace options.scope), declaredNames_nil,
      List.append_nil]
  have inside : ∀ text ∈ tables.instructions.map
      (fun instruction => line 1 (instruction.enumTag ++ ",")) ++ [line 1 Identifier.invalidTag],
      text ≠ "\x7d;" := by
    rw [List.forall_mem_append, List.forall_mem_map, List.forall_mem_singleton]
    exact ⟨fun instruction _ => line_ne 0 _ (by decide), line_ne 0 _ (by decide)⟩
  have last : enumerator (line 1 Identifier.invalidTag) = "kInvalid" := by decide
  have parts := enumerators_append _ _ ([""] ++ tables.instructions.flatMap structLines ++ [""] ++
    unionLines tables.instructions ++ ["", "\x7d // namespace " ++ options.scope]) outside inside
  rw [List.map_append, List.map_map, List.map_singleton, last] at parts
  have comma : enumerator ∘ (fun instruction : Instruction =>
      line 1 (instruction.enumTag ++ ",")) = (·.enumTag) :=
    funext fun instruction => enumerator_line_comma instruction.enumTag
  rw [comma] at parts
  rw [← parts]
  simp only [instructionLines, enumLines, enumHead, List.append_assoc, List.cons_append,
    List.nil_append]

end DecoderTables.Header
