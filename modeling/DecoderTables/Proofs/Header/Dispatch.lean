import DecoderTables.Proofs.Header.Functions

/-!
The function that calls a decoder or a splitter by the selector. It is read from the text of the
decoder header as a switch over a field of the low half-word, and every line of a case reads back as
the entry of the table that it is written for.
-/

namespace DecoderTables.Header
open Identifier

/-- One case of a switch: its label, and the function that it calls. -/
structure Branch where
  label : Nat
  callee : String
deriving DecidableEq

/-- A switch over a field of the low half-word, and what is called behind it. -/
structure Dispatch where
  high : Nat
  low : Nat
  branches : List Branch
  fallback : String

/-- How a dispatch ends: a case calls its function, or no case matches. Then the default branch
asserts falsehood, and only without assertions the function behind the switch is called. -/
inductive Outcome where
  | calls (callee : String)
  | unmatched (fallback : String)
deriving DecidableEq

namespace Dispatch

/-- The value of the field in a half-word. -/
def selector (dispatch : Dispatch) (lo : HalfWord) : Nat :=
  (lo.extractLsb dispatch.high dispatch.low).toNat

/-- All cases whose label is the value of the field. -/
def matching (dispatch : Dispatch) (lo : HalfWord) : List Branch :=
  dispatch.branches.filter (·.label = dispatch.selector lo)

def run (dispatch : Dispatch) (lo : HalfWord) : Outcome :=
  match dispatch.branches.find? (·.label = dispatch.selector lo) with
  | some branch => .calls branch.callee
  | none => .unmatched dispatch.fallback

end Dispatch

/-! A dispatch is read from the text of a header. -/

def constantForm : String := "static constexpr u32 _ = _;"

/-- The value of a constant, if a line defines it. -/
def constantOf? (name : List Char) (line : String) : Option Nat :=
  match capture constantForm line with
  | some [known, number] => if known = name then numeral? number else none
  | _ => none

/-- The value of the first constant of a name. -/
def constant? (name : List Char) (lines : List String) : Option Nat :=
  lines.findSome? (constantOf? name)

def fieldForm : String := "const u16 opc = Bm32::ExtractBits1R<_, _>(rinstr.low);"

def switchForm : String := "switch (opc) \x7b"

def caseForm : String := "case _: \x7b"

def callForm : String := "return _<TCpuAccessor, TItOps>(rinstr, cpua);"

/-- A default branch that asserts falsehood, and a call behind the switch. -/
def defaultForm : String :=
  "default: \x7b assert(false); break; \x7d \x7d return _<TCpuAccessor, TItOps>(rinstr, cpua);"

/-- The cases at the beginning of some lines, and the lines behind them. -/
def readBranches? : List String → Option (List Branch × List String)
  | head :: call :: closing :: lines =>
      match capture caseForm head, capture callForm call, capture "\x7d" closing with
      | some [label], some [callee], some [] => do
          let (branches, rest) ← readBranches? lines
          return (⟨← numeral? label, String.ofList callee⟩ :: branches, rest)
      | _, _, _ => some ([], head :: call :: closing :: lines)
  | lines => some ([], lines)

/-- The dispatch of a header. -/
def Dispatch.read? (text : String) : Option Dispatch := do
  let field :: switch :: body := functionBody "call_decoder" text | none
  let [high, low] ← capture fieldForm field | none
  let [] ← capture switchForm switch | none
  let (branches, rest) ← readBranches? body
  let [fallback] ← captureTokens (tokens defaultForm) (rest.flatMap tokens) | none
  return ⟨← constant? high (scopeLines text), ← constant? low (scopeLines text), branches,
    String.ofList fallback⟩

/-! The lines of the function read back. -/

theorem tokens_callLine (level : Nat) {callback : String} (name : IsName callback) :
    tokens (callLine level callback) =
      [.word "return".toList, .word callback.toList, .symbol '<', .word "TCpuAccessor".toList,
        .symbol ',', .word "TItOps".toList, .symbol '>', .symbol '(', .word "rinstr".toList,
        .symbol ',', .word "cpua".toList, .symbol ')', .symbol ';'] := by
  have callee := fun rest => tokensFrom_append [] callback.toList rest name.2
  rw [callLine, tokens_line]
  simp [tokens, tokensFrom, isWordChar, Token.ofWord_nil, Token.ofWord_of_ne_nil, callee,
    name.toList_ne_nil]

theorem capture_callLine (level : Nat) {callback : String} (name : IsName callback) :
    capture callForm (callLine level callback) = some [callback.toList] := by
  rw [capture, tokens_callLine level name]
  rfl

theorem capture_caseHead (level : Nat) (digits : List Char) (only : IsDigits digits) :
    capture caseForm (line level ("case 0b" ++ String.ofList digits ++ "U: \x7b")) =
      some ['0' :: 'b' :: digits ++ ['U']] := by
  have number := fun word rest => tokensFrom_append word digits rest (isWord_of_isDigits only)
  have read : tokens ("case 0b" ++ String.ofList digits ++ "U: \x7b") =
      [.word "case".toList, .word ('0' :: 'b' :: digits ++ ['U']), .symbol ':',
        .symbol '\x7b'] := by
    simp [tokens, tokensFrom, isWordChar, Token.ofWord, number]
  rw [capture, tokens_line, read]
  rfl

/-- What an entry of the table needs so that its case reads back. -/
structure Printable (entry : SelectorEntry) : Prop where
  bound : entry.index.toNat < 32
  bin : entry.bin = String.ofList (binaryDigits 5 entry.index.toNat)
  callback : IsName entry.callback

def branchOf (entry : SelectorEntry) : Branch :=
  ⟨entry.index.toNat, entry.callback⟩

theorem readBranches?_caseLines {entry : SelectorEntry} (printable : Printable entry)
    (lines : List String) :
    readBranches? (caseLines entry ++ lines) =
      (readBranches? lines).map fun (branches, rest) => (branchOf entry :: branches, rest) := by
  have head := capture_caseHead 1 _ (isDigits_binaryDigits 5 entry.index.toNat)
  rw [← printable.bin] at head
  have call := capture_callLine 2 printable.callback
  have closing : capture "\x7d" (line 1 "\x7d") = some [] := by
    rw [capture, tokens_line]
    rfl
  have nonempty : binaryDigits 5 entry.index.toNat ≠ [] := by
    rw [← List.length_pos_iff, length_binaryDigits]
    decide
  have label := (numeral?_binary _ nonempty).trans
    (binaryDigits?_binaryDigits 5 _ printable.bound)
  rw [caseLines, List.cons_append, List.cons_append, List.cons_append, readBranches?, head, call,
    closing, List.nil_append]
  cases readBranches? lines with
  | none => rfl
  | some found =>
    simp only [label, String.ofList_toList]
    rfl

theorem readBranches?_flatMap (entries : List SelectorEntry)
    (printable : ∀ entry ∈ entries, Printable entry) (rest : List String)
    (stop : readBranches? rest = some ([], rest)) :
    readBranches? (entries.flatMap caseLines ++ rest) = some (entries.map branchOf, rest) := by
  induction entries with
  | nil => exact stop
  | cons entry entries ih =>
    obtain ⟨here, later⟩ := List.forall_mem_cons.mp printable
    rw [List.flatMap_cons, List.append_assoc, readBranches?_caseLines here, ih later]
    rfl

theorem capture_defaultLines :
    captureTokens (tokens defaultForm) (defaultLines.flatMap tokens) =
      some [invalidDecoder.toList] := by
  -- long texts are turned into lists before the evaluation, which is slow on the texts themselves
  rw [tokens, defaultForm, String.toList_ofList]
  simp only [defaultLines, List.flatMap_cons, List.flatMap_nil, tokens_line,
    tokens_callLine 1 isName_invalidDecoder]
  rfl

theorem readBranches?_defaultLines :
    readBranches? defaultLines = some ([], defaultLines) := by
  rfl

/-- The line that takes the field from the low half-word. -/
def fieldLine : String :=
  line 1 ("const u16 opc = " ++
    "Bm32::ExtractBits1R<kDecodersOpCodeLast, kDecodersOpCodeFirst>(rinstr.low);")

theorem capture_fieldLine :
    capture fieldForm fieldLine =
      some ["kDecodersOpCodeLast".toList, "kDecodersOpCodeFirst".toList] := by
  rw [capture, fieldForm, fieldLine, tokens_line, tokens, tokens, String.toList_append]
  iterate 5 rw [String.toList_ofList]
  rfl

def switchLine : String := line 1 "switch (opc) \x7b"

theorem capture_switchLine : capture switchForm switchLine = some [] := by
  rw [capture, switchForm, switchLine, tokens_line]
  rfl

theorem callBody_eq (opcodes : List SelectorEntry) :
    callBody opcodes = fieldLine :: switchLine :: (opcodes.flatMap caseLines ++ defaultLines) :=
  rfl

/-- The dispatch has no line feeds inside of its lines. -/
theorem cut_callBody {opcodes : List SelectorEntry}
    (printable : ∀ entry ∈ opcodes, Printable entry) :
    cut (callBody opcodes) = callBody opcodes := by
  have fixed : ∀ line ∈ fieldLine :: switchLine :: defaultLines, '\n' ∉ line.toList := by
    decide +kernel
  rw [List.forall_mem_cons, List.forall_mem_cons] at fixed
  apply cut_of_free
  rw [callBody_eq, List.forall_mem_cons, List.forall_mem_cons, List.forall_mem_append,
    List.forall_mem_flatMap]
  refine ⟨fixed.1, fixed.2.1, ?_, fixed.2.2⟩
  intro entry member
  have callback := (isFlat_of_isWord (printable entry member).callback.2).not_mem
  have bin := (isFlat_ofDigits (isDigits_binaryDigits 5 entry.index.toNat)).not_mem
  rw [← (printable entry member).bin] at bin
  simp [caseLines, callLine, line, indent, bin, callback]

/-! The constants of the field. -/

theorem constant?_append_of_none {name : List Char} {first : List String}
    (none : constant? name first = none) (second : List String) :
    constant? name (first ++ second) = constant? name second := by
  rw [constant?, List.findSome?_append]
  exact congrArg (Option.or · _) none

theorem capture_constantLine {name : String} (known : IsName name) (value : Nat) :
    capture constantForm
        ("static constexpr u32 " ++ name ++ " = " ++ toString value ++ "U;") =
      some [name.toList, Nat.toDigits 10 value ++ ['U']] := by
  have number := fun word rest => tokensFrom_append word _ rest (isWord_toDigits value)
  have text := fun word rest => tokensFrom_append word name.toList rest known.2
  have read : tokens ("static constexpr u32 " ++ name ++ " = " ++ toString value ++ "U;") =
      [.word "static".toList, .word "constexpr".toList, .word "u32".toList, .word name.toList,
        .symbol '=', .word (Nat.toDigits 10 value ++ ['U']), .symbol ';'] := by
    simp [tokens, tokensFrom, isWordChar, Token.ofWord_nil, Token.ofWord_of_ne_nil, text, number,
      known.toList_ne_nil]
  rw [capture, read]
  rfl

theorem constantOf?_selectorLine {name : String} (known : IsName name) (bit : UInt32)
    (wanted : List Char) :
    constantOf? wanted (selectorLine name bit) =
      if name.toList = wanted then some bit.toNat else none := by
  unfold selectorLine constantOf?
  generalize bit.toNat = value
  rw [capture_constantLine known]
  simp only [numeral?_toDigits]

end DecoderTables.Header
