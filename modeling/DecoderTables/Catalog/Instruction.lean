import DecoderTables.Catalog.Intake
import DecoderTables.Document.Basic
import DecoderTables.Identifier

/-!
The instructions of a document, with a struct and an enumerator for each.
-/

namespace DecoderTables
open Json

structure Instruction where
  name : String
  structName : String
  enumTag : String
  fields : Members

namespace Instruction

def ofEntry (name : String) (fields : Members) : Instruction :=
  ⟨name, Identifier.structName name, Identifier.enumTag name, fields⟩

def identifiers (instruction : Instruction) : List String :=
  [instruction.structName, instruction.enumTag]

/-- The identifiers taken before the next instruction. -/
def taken (accepted : List Instruction) : List String :=
  Identifier.invalidTag :: accepted.flatMap identifiers

def find? (instructions : List Instruction) (name : String) : Option Instruction :=
  instructions.find? (·.name = name)

def accept (accepted : List Instruction) (entry : String × Members) :
    Except BuildError Instruction :=
  let (name, fields) := entry
  let instruction := ofEntry name fields
  if (find? accepted name).isSome then .error (.repeatedInstruction name)
  else
    match instruction.identifiers.find? (· ∈ taken accepted) with
    | some identifier => .error (.repeatedIdentifier name identifier)
    | none => .ok instruction

def intake (entries : Section Members) : Intake Instruction :=
  takeIn accept [] entries

end Instruction

end DecoderTables
