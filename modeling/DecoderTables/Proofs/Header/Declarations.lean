import DecoderTables.Proofs.Header.Members

/-!
The instruction header as clauses. The enumeration, the structs and the union are found in the text
with the lines that were written for them, and so are the enumerators and the data members.
-/

namespace DecoderTables.Header

/-! What a text says of its types. -/

/-- The structs that a header declares in its namespace. -/
def structNames (text : String) : List String :=
  (scopeLines text).filterMap structForm.read?

/-- The lines between the head of a struct and the brace that closes it. -/
def structBody (name : String) (text : String) : List String :=
  blockOf structForm.read? name text

/-- The enumerators of the instructions. -/
def instructionTags (text : String) : List String :=
  (blockOf enumForm.read? "InstrId" text).map enumerator

/-! The lines of a type. -/

def typeLines (head : String) (inner : List String) : List String :=
  head :: (inner ++ ["\x7d;"])

def typeClause (head : String) (inner : List String) : Clause :=
  ⟨head, inner ++ ["\x7d;"]⟩

theorem closed_typeLines {head : String} {inner : List String} (opens : Moves 0 1 [head])
    (closed : Closed inner) : Closed (typeLines head inner) := by
  have closing : Moves 1 0 ["\x7d;"] := by decide
  exact opens.append (closed.deeper.append closing)

theorem clauses_cut_typeLines {head : String} {inner : List String} (opens : Moves 0 1 [head])
    (free : '\n' ∉ head.toList) (closed : Closed inner) :
    clauses (cut (typeLines head inner)) = [typeClause head (cut inner)] := by
  have first : cut [head] = [head] := cut_of_free (List.forall_mem_singleton.mpr free)
  have last : cut ["\x7d;"] = ["\x7d;"] := by decide
  have lines : cut (typeLines head inner) = head :: (cut inner ++ ["\x7d;"]) := by
    rw [typeLines, ← List.singleton_append, cut_append, cut_append, first, last]
    rfl
  rw [lines]
  exact clauses_block opens (moves_cut_iff.mpr closed)

def structHead (name : String) : String := "struct " ++ name ++ " \x7b"

def unionHead : String := "union Instr \x7b"

/-- The lines inside of the enumeration. -/
def tagLines (instructions : List Instruction) : List String :=
  instructions.map (fun instruction => line 1 (instruction.enumTag ++ ",")) ++
    [line 1 Identifier.invalidTag]

/-- The lines inside of a struct. -/
def fieldLines (instruction : Instruction) : List String :=
  idMember :: flagsMember :: memberLines instruction

/-- The lines inside of the union. -/
def alternativeLines (instructions : List Instruction) : List String :=
  [line 1 "InstrId id;"] ++
  instructions.map (fun instruction =>
    line 1 (instruction.structName ++ " " ++ instruction.name ++ ";")) ++
  ["", line 1 ("Instr() : id(InstrId::" ++ Identifier.invalidTag ++ ") \x7b\x7d"),
    line 1 "Instr(const InstrId &arg) : id(arg) \x7b\x7d"] ++
  instructions.map (fun instruction =>
    line 1 ("Instr(const " ++ instruction.structName ++ " &arg) : " ++ instruction.name ++
      "(arg) \x7b\x7d"))

/-- What the instruction header takes from an instruction stays in its place. -/
structure Contained (instruction : Instruction) : Prop where
  name : IsFlat instruction.name
  enumTag : IsFlat instruction.enumTag
  structName : IsFlat instruction.structName
  members : Closed (memberLines instruction)

theorem moves_structHead {name : String} (flat : IsFlat name) : Moves 0 1 [structHead name] := by
  have start : Passes 0 0 "struct " := IsFlat.passes (by decide) 0
  have last : Passes 0 1 " \x7b" := passes_of_plain (by decide) (by decide)
  exact ((start.append (flat.passes 0)).append last).moves

theorem not_mem_structHead {name : String} (flat : IsFlat name) :
    '\n' ∉ (structHead name).toList := by
  have free := flat.not_mem
  simpa [structHead] using free

theorem closed_tagLines {instructions : List Instruction}
    (contained : ∀ instruction ∈ instructions, Contained instruction) :
    Closed (tagLines instructions) := by
  have invalid : Closed [line 1 Identifier.invalidTag] := by decide
  have comma : IsFlat "," := by decide
  have tags : Closed (instructions.map fun instruction => line 1 (instruction.enumTag ++ ",")) :=
    closed_of_forall (List.forall_mem_map.mpr fun instruction member =>
      (((contained instruction member).enumTag.append comma).line 1).closed)
  exact tags.append invalid

theorem closed_fieldLines {instruction : Instruction} (contained : Contained instruction) :
    Closed (fieldLines instruction) := by
  have builtIn : Closed [idMember, flagsMember] := by decide +kernel
  exact builtIn.append contained.members

theorem closed_alternativeLines {instructions : List Instruction}
    (contained : ∀ instruction ∈ instructions, Contained instruction) :
    Closed (alternativeLines instructions) := by
  have id : Closed [line 1 "InstrId id;"] := by decide +kernel
  have builtIn : Closed ["",
      line 1 ("Instr() : id(InstrId::" ++ Identifier.invalidTag ++ ") \x7b\x7d"),
      line 1 "Instr(const InstrId &arg) : id(arg) \x7b\x7d"] := by decide +kernel
  have parts : IsFlat " " ∧ IsFlat ";" ∧ IsFlat "Instr(const " ∧ IsFlat " &arg) : " := by decide
  have last : Passes 0 0 "(arg) \x7b\x7d" := passes_of_plain (by decide) (by decide)
  have alternatives : Closed (instructions.map fun instruction =>
      line 1 (instruction.structName ++ " " ++ instruction.name ++ ";")) := by
    apply closed_of_forall
    rw [List.forall_mem_map]
    intro instruction member
    have known := contained instruction member
    exact ((((known.structName.append parts.1).append known.name).append parts.2.1).line 1).closed
  have constructors : Closed (instructions.map fun instruction =>
      line 1 ("Instr(const " ++ instruction.structName ++ " &arg) : " ++ instruction.name ++
        "(arg) \x7b\x7d")) := by
    apply closed_of_forall
    rw [List.forall_mem_map]
    intro instruction member
    have known := contained instruction member
    have start := ((parts.2.2.1.append known.structName).append parts.2.2.2).append known.name
    exact (((start.passes 0).append last).line 1).moves
  exact ((id.append alternatives).append builtIn).append constructors

/-! The header. -/

variable {document : Document} {tables : Tables} {options : HeaderOptions}

/-- The lines of the instruction header in its namespace. -/
def typeSpace (tables : Tables) (options : HeaderOptions) : List String :=
  "" :: (typeLines enumHead (tagLines tables.instructions) ++ "" ::
    (tables.instructions.flatMap structLines ++ "" ::
      (typeLines unionHead (alternativeLines tables.instructions) ++ closingLines options)))

theorem instructionLines_eq (tables : Tables) (options : HeaderOptions) :
    instructionLines tables options =
      ([note, "#pragma once", ""] ++ includes instructionIncludes ++ [""]) ++
        ("namespace " ++ options.scope ++ " \x7b") :: typeSpace tables options := by
  simp only [instructionLines, typeSpace, typeLines, tagLines, alternativeLines, enumLines,
    unionLines, unionHead, enumHead, closingLines, List.append_assoc, List.cons_append,
    List.nil_append]

theorem namespaceLines_instructions (scope : '\n' ∉ options.scope.toList) :
    namespaceLines (instructions tables options) = cut (typeSpace tables options) := by
  rw [instructions, instructionLines_eq]
  refine namespaceLines_textOf ?_ scope _
  decide +kernel

/-- What the namespace of the instruction header consists of. -/
def typeClauses (tables : Tables) (options : HeaderOptions) : List Clause :=
  ⟨"", []⟩ :: typeClause enumHead (cut (tagLines tables.instructions)) :: ⟨"", []⟩ ::
    (tables.instructions.map (fun instruction =>
        typeClause (structHead instruction.structName) (cut (fieldLines instruction))) ++
      ⟨"", []⟩ :: typeClause unionHead (cut (alternativeLines tables.instructions)) ::
        plainClauses (closingLines options))

/-- Instructions that stay in their place leave the clauses of the header as they are written. -/
theorem clausesOf_instructions (scope : '\n' ∉ options.scope.toList)
    (contained : ∀ instruction ∈ tables.instructions, Contained instruction) :
    clausesOf (instructions tables options) = typeClauses tables options := by
  have enumOpens : Moves 0 1 [enumHead] ∧ '\n' ∉ enumHead.toList := by decide
  have unionOpens : Moves 0 1 [unionHead] ∧ '\n' ∉ unionHead.toList := by decide
  have tags := closed_tagLines contained
  have alternatives := closed_alternativeLines contained
  have structs : ∀ instruction ∈ tables.instructions, Closed (structLines instruction) :=
    fun instruction member =>
      closed_typeLines (moves_structHead (contained instruction member).structName)
        (closed_fieldLines (contained instruction member))
  have ofStructs : tables.instructions.flatMap (fun instruction =>
      clauses (cut (structLines instruction))) = tables.instructions.flatMap fun instruction =>
        [typeClause (structHead instruction.structName) (cut (fieldLines instruction))] :=
    List.flatMap_congr fun instruction member =>
      have known := contained instruction member
      clauses_cut_typeLines (moves_structHead known.structName)
        (not_mem_structHead known.structName) (closed_fieldLines known)
  rw [clausesOf, namespaceLines_instructions scope, typeSpace, clauses_cut_cons_empty,
    clauses_cut_append (closed_typeLines enumOpens.1 tags),
    clauses_cut_typeLines enumOpens.1 enumOpens.2 tags, clauses_cut_cons_empty,
    clauses_cut_append (closed_flatMap structs), clauses_cut_flatMap _ structs, ofStructs,
    clauses_cut_cons_empty, clauses_cut_append (closed_typeLines unionOpens.1 alternatives),
    clauses_cut_typeLines unionOpens.1 unionOpens.2 alternatives,
    clauses_closingLines options scope, ← List.map_eq_flatMap]
  rfl

theorem read?_structHead (name : String) : structForm.read? (structHead name) = some name := by
  rw [structHead, String.append_assoc]
  exact read?_append structForm name

variable {text : String} (known : clausesOf text = typeClauses tables options)

include known

theorem scopeLines_of_clauses :
    scopeLines text = ["", enumHead, ""] ++
      (tables.instructions.map (fun instruction => structHead instruction.structName) ++
        (["", unionHead] ++ closingLines options)) := by
  rw [scopeLines, known, typeClauses]
  simp only [List.map_cons, List.map_append, List.map_map, heads_plainClauses]
  rfl

theorem structNames_of_clauses : structNames text = tables.instructions.map (·.structName) := by
  have first : ["", enumHead, ""].filterMap structForm.read? = [] := by decide
  have last : (["", unionHead] ++ closingLines options).filterMap structForm.read? = [] := by
    have closing : structForm.read? ("\x7d // namespace " ++ options.scope) = none :=
      read?_of_clash _ _ _ (by decide)
    have builtIn : ["", unionHead, ""].filterMap structForm.read? = [] := by decide
    exact (List.filterMap_append (l := ["", unionHead, ""])).trans
      (congrArg₂ (· ++ ·) builtIn (List.filterMap_cons_none closing))
  have heads : (structForm.read? ∘ fun instruction : Instruction =>
      structHead instruction.structName) = fun instruction => some instruction.structName :=
    funext fun instruction => read?_structHead instruction.structName
  rw [structNames, scopeLines_of_clauses known, List.filterMap_append, List.filterMap_append,
    first, last, List.filterMap_map, heads, List.filterMap_eq_map']
  simp

theorem structBody_of_clauses (built : Tables.Built document tables) {instruction : Instruction}
    (member : instruction ∈ tables.instructions) :
    structBody instruction.structName text = cut (fieldLines instruction) := by
  apply blockOf_of_mem _ _ (read?_structHead instruction.structName)
  · exact "\x7d;"
  · have names := structNames_of_clauses known
    rw [structNames] at names
    rw [names]
    exact built.nodup_structNames
  · rw [known, typeClauses]
    have here := List.mem_map_of_mem (f := fun instruction : Instruction =>
      typeClause (structHead instruction.structName) (cut (fieldLines instruction))) member
    exact List.mem_cons_of_mem _ (List.mem_cons_of_mem _ (List.mem_cons_of_mem _
      (List.mem_append_left _ here)))

theorem instructionTags_of_clauses
    (contained : ∀ instruction ∈ tables.instructions, Contained instruction) :
    instructionTags text = tables.instructions.map (·.enumTag) ++ ["kInvalid"] := by
  have free : cut (tagLines tables.instructions) = tagLines tables.instructions := by
    have invalid : '\n' ∉ (line 1 Identifier.invalidTag).toList := by decide
    have comma : IsFlat "," := by decide
    apply cut_of_free
    rw [tagLines, List.forall_mem_append, List.forall_mem_map, List.forall_mem_singleton]
    exact ⟨fun instruction member =>
      (((contained instruction member).enumTag.append comma).line 1).not_mem, invalid⟩
  have last : enumerator (line 1 Identifier.invalidTag) = "kInvalid" := by decide
  have comma : enumerator ∘ (fun instruction : Instruction =>
      line 1 (instruction.enumTag ++ ",")) = (·.enumTag) :=
    funext fun instruction => enumerator_line_comma instruction.enumTag
  have skipped : ¬decide (enumForm.read? "" = some "InstrId") = true := by decide
  have found : decide (enumForm.read? enumHead = some "InstrId") = true := by decide
  rw [instructionTags, blockOf, known, typeClauses, List.find?_cons_of_neg (by exact skipped),
    List.find?_cons_of_pos (by exact found), free]
  simp only [typeClause, List.dropLast_concat]
  rw [tagLines, List.map_append, List.map_map, comma, List.map_singleton, last]

end DecoderTables.Header
