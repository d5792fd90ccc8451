import DecoderTables.Text.Upper

/-!
The C++ identifiers that entries of a document derive from their names.
-/

namespace DecoderTables.Identifier

def capitalize : List Char → List Char
  | [] => []
  | c :: rest => Text.upper c ++ rest

/-- The parts of a name between underscores. -/
def segments (name : List Char) : List (List Char) :=
  (name.splitOn '_').filter (!·.isEmpty)

/-- Only the first character of each part changes, and empty parts vanish. -/
def pascalCase (name : String) : String :=
  String.ofList ((segments name.toList).flatMap capitalize)

def structName (name : String) : String :=
  "Instr" ++ pascalCase name

def enumTag (name : String) : String :=
  "k" ++ pascalCase name

def decoderCallback (name : String) : String :=
  pascalCase name ++ "Decoder"

/-- The name of a splitter is kept as it is. -/
def splitterCallback (name : String) : String :=
  "Splitter" ++ name

/-- Called for selector values without an opcode. -/
def invalidDecoder : String := "InvalidInstrDecoder"

/-- The tag of an instruction that was not decoded. -/
def invalidTag : String := "kInvalid"

end DecoderTables.Identifier
