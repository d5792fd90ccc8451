import DecoderTables.Catalog.Splitter
import Mathlib.Data.Finmap

/-!
Catalogs with an index. The items stand in the order of the document, and a map beside them gives
the position of each name. A look-up goes through the map, so it fails where a position is not that
of an item. The identifiers in use are a set that grows with the items.
-/

namespace DecoderTables
open Json

/-- What ends a computation on catalogs. -/
inductive Stop where
  | refused (fault : BuildError)
  /-- A position behind the last item. -/
  | outOfRange

structure Catalog (α : Type) where
  items : List α
  index : Finmap fun _ : String => Nat

namespace Catalog

variable {α : Type}

def empty : Catalog α :=
  ⟨[], ∅⟩

def contains (catalog : Catalog α) (name : String) : Bool :=
  decide (name ∈ catalog.index)

def get (catalog : Catalog α) (name : String) : Except Stop (Option α) :=
  match catalog.index.lookup name with
  | none => .ok none
  | some position =>
      match catalog.items[position]? with
      | some item => .ok (some item)
      | none => .error .outOfRange

def push (catalog : Catalog α) (name : String) (item : α) : Catalog α :=
  ⟨catalog.items ++ [item], catalog.index.insert name catalog.items.length⟩

/-- Equality of the items and of the indices. -/
def equals (same : α → α → Bool) (catalog other : Catalog α) : Bool :=
  catalog.items.isEqv other.items same && decide (catalog.index = other.index)

end Catalog

/-- How the entries of a section fill a catalog. -/
structure Filler (ε α : Type) where
  repeatedName : String → BuildError
  make : String → ε → Except Stop α
  identifiers : α → List String
  /-- The identifiers in use before the first entry. -/
  reserved : Finset String

/-- A catalog on its way, and the identifiers in use. -/
structure Filling (α : Type) where
  catalog : Catalog α
  used : Finset String

namespace Filler

variable {ε α : Type}

/-- Takes the identifiers of an entry into use one after the other. -/
def reserve (name : String) (used : Finset String) : List String → Except Stop (Finset String)
  | [] => .ok used
  | identifier :: identifiers =>
      if identifier ∈ used then .error (.refused (.repeatedIdentifier name identifier))
      else reserve name (insert identifier used) identifiers

def add (filler : Filler ε α) (filling : Filling α) (entry : String × ε) :
    Except Stop (Filling α) :=
  if filling.catalog.contains entry.1 then .error (.refused (filler.repeatedName entry.1))
  else do
    let item ← filler.make entry.1 entry.2
    let used ← reserve entry.1 filling.used (filler.identifiers item)
    return ⟨filling.catalog.push entry.1 item, used⟩

def fill (filler : Filler ε α) (entries : Section ε) : Except Stop (Catalog α) :=
  (entries.foldlM filler.add ⟨.empty, filler.reserved⟩).map (·.catalog)

end Filler

namespace Instruction

def filler : Filler Members Instruction where
  repeatedName := .repeatedInstruction
  make name fields := .ok (ofEntry name fields)
  identifiers := identifiers
  reserved := {Identifier.invalidTag}

def equals (instruction other : Instruction) : Bool :=
  instruction.name = other.name && instruction.structName = other.structName &&
    instruction.enumTag = other.enumTag && Members.equals instruction.fields other.fields

end Instruction

namespace Decoder

/-- The decoder of an entry, given what was found under the name of its instruction. -/
def ofInstruction (name : String) (entry : DecoderEntry) :
    Option Instruction → Except BuildError Decoder
  | none => .error (.unknownInstruction name entry.instruction)
  | some instruction => do
      let pattern ← patternOf name entry.pattern
      return {
        name
        instruction := instruction.name
        callback := Identifier.decoderCallback name
        structName := instruction.structName
        enumTag := instruction.enumTag
        flags := FlagSet.ofList entry.flags
        pattern
        predicates := (pattern.map (·.predicates)).getD []
        fields := entry.fields }

def filler (instructions : Catalog Instruction) : Filler DecoderEntry Decoder where
  repeatedName := .repeatedDecoder
  make name entry := do
    let found ← instructions.get entry.instruction
    (ofInstruction name entry found).mapError .refused
  identifiers decoder := [decoder.callback]
  reserved := {Identifier.invalidDecoder}

def equals (decoder other : Decoder) : Bool :=
  decoder.name = other.name && decoder.instruction = other.instruction &&
    decoder.callback = other.callback && decoder.structName = other.structName &&
    decoder.enumTag = other.enumTag && decoder.flags = other.flags &&
    decoder.pattern = other.pattern && decoder.predicates = other.predicates &&
    Members.equals decoder.fields other.fields

end Decoder

namespace Splitter

/-- The callbacks of splitters are not compared with each other. -/
def filler : Filler SplitterEntry Splitter where
  repeatedName := .repeatedSplitter
  make name entry := .ok (ofEntry name entry)
  identifiers _ := []
  reserved := ∅

def equals (splitter other : Splitter) : Bool :=
  splitter.name = other.name && splitter.callback = other.callback &&
    splitter.flags = other.flags && Members.equals splitter.fields other.fields

end Splitter

end DecoderTables
