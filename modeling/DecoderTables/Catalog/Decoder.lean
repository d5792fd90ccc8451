import DecoderTables.Catalog.FlagSet
import DecoderTables.Catalog.Instruction

/-!
The decoders of a document. A decoder produces one instruction and checks the fixed bits of its
pattern.
-/

namespace DecoderTables
open Json

structure Decoder where
  name : String
  /-- The name of the instruction. -/
  instruction : String
  callback : String
  structName : String
  enumTag : String
  flags : List String
  pattern : Option BitPattern
  predicates : List Predicate
  fields : Members

namespace Decoder

/-- Whether the encoding has two half-words. -/
def isWide (decoder : Decoder) : Bool :=
  decoder.pattern.any (·.isWide)

def find? (decoders : List Decoder) (name : String) : Option Decoder :=
  decoders.find? (·.name = name)

def patternOf (name : String) : Option PatternEntry → Except BuildError (Option BitPattern)
  | none => .ok none
  | some entry =>
      match BitPattern.ofTexts entry.lo entry.hi with
      | .ok pattern => .ok (some pattern)
      | .error (text, reason) => .error (.malformedPattern name text reason)

def ofEntry (instructions : List Instruction) (name : String) (entry : DecoderEntry) :
    Except BuildError Decoder :=
  match Instruction.find? instructions entry.instruction with
  | none => .error (.unknownInstruction name entry.instruction)
  | some instruction => do
      let pattern ← patternOf name entry.pattern
      return {
        name
        instruction := instruction.name
        callback := Identifier.decoderCallback name
        structName := instruction.structName
        enumTag := instruction.enumTag
        flags := FlagSet.ofList entry.flags
        pattern
        predicates := (pattern.map (·.predicates)).getD []
        fields := entry.fields }

/-- The callbacks taken before the next decoder. -/
def taken (accepted : List Decoder) : List String :=
  Identifier.invalidDecoder :: accepted.map (·.callback)

def accept (instructions : List Instruction) (accepted : List Decoder)
    (entry : String × DecoderEntry) : Except BuildError Decoder :=
  let (name, entry) := entry
  if (find? accepted name).isSome then .error (.repeatedDecoder name)
  else do
    let decoder ← ofEntry instructions name entry
    if decoder.callback ∈ taken accepted then
      .error (.repeatedIdentifier name decoder.callback)
    else .ok decoder

def intake (instructions : List Instruction) (entries : Section DecoderEntry) :
    Intake Decoder :=
  takeIn (accept instructions) [] entries

end Decoder

end DecoderTables
