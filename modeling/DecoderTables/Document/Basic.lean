import DecoderTables.Json.Value

/-!
The specification document: four sections of named entries. A section keeps the order of its
entries, and a name may occur more than once.
-/

namespace DecoderTables
open Json

structure PatternEntry where
  lo : String
  hi : Option String
deriving DecidableEq

structure DecoderEntry where
  instruction : String
  flags : List String
  pattern : Option PatternEntry
  fields : Members

structure SplitterEntry where
  flags : List String
  fields : Members

structure OpcodeEntry where
  decoder : String
  fields : Members

abbrev Section (α : Type) := List (String × α)

/-- The first entry of a name. -/
def Section.get? {α : Type} (entries : Section α) (name : String) : Option α :=
  entries.lookup name

structure Document where
  instructions : Section Members
  decoders : Section DecoderEntry
  splitters : Section SplitterEntry
  opcodes : Section OpcodeEntry

def Document.empty : Document :=
  ⟨[], [], [], []⟩

end DecoderTables
