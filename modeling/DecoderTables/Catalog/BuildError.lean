import DecoderTables.Pattern.Basic

/-!
What is wrong with a document that has the right shape.
-/

namespace DecoderTables

inductive BuildError where
  | malformedPattern (decoder pattern : String) (reason : PatternError)
  | repeatedInstruction (name : String)
  | repeatedDecoder (name : String)
  | repeatedSplitter (name : String)
  | unknownInstruction (decoder instruction : String)
  | unknownCallback (opcode callback : String)
  /-- A name of both a decoder and a splitter. -/
  | ambiguousCallback (name : String)
  | invalidOpcodeKey (key : String)
  | repeatedOpcode (key : String)
  /-- A derived identifier that another entry or the generated code itself uses. -/
  | repeatedIdentifier (name identifier : String)
deriving DecidableEq

private def inQuotes (text : String) : String :=
  "\"" ++ text ++ "\""

def BuildError.message : BuildError → String
  | .malformedPattern decoder pattern reason =>
      "malformed bit pattern " ++ inQuotes pattern ++ " in decoder " ++ inQuotes decoder ++ ", " ++
        reason.message
  | .repeatedInstruction name => "duplicate instruction name " ++ inQuotes name
  | .repeatedDecoder name => "duplicate decoder name " ++ inQuotes name
  | .repeatedSplitter name => "duplicate splitter name " ++ inQuotes name
  | .unknownInstruction decoder instruction =>
      "decoder " ++ inQuotes decoder ++ " references unknown instruction " ++ inQuotes instruction
  | .unknownCallback opcode callback =>
      "opcode " ++ opcode ++ " references unknown decoder or splitter " ++ inQuotes callback
  | .ambiguousCallback name => inQuotes name ++ " is defined both as a decoder and a splitter"
  | .invalidOpcodeKey key => "invalid opcode " ++ inQuotes key ++ ", expected 5 binary digits"
  | .repeatedOpcode key => "duplicate opcode " ++ inQuotes key
  | .repeatedIdentifier name identifier =>
      inQuotes name ++ " derives identifier " ++ inQuotes identifier ++ " which is already in use"

end DecoderTables
