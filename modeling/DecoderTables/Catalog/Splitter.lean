import DecoderTables.Catalog.Decoder

/-!
The splitters of a document: second points of dispatch for selector values that several encodings
share.
-/

namespace DecoderTables
open Json

structure Splitter where
  name : String
  callback : String
  flags : List String
  fields : Members

namespace Splitter

def ofEntry (name : String) (entry : SplitterEntry) : Splitter :=
  ⟨name, Identifier.splitterCallback name, FlagSet.ofList entry.flags, entry.fields⟩

def find? (splitters : List Splitter) (name : String) : Option Splitter :=
  splitters.find? (·.name = name)

def accept (accepted : List Splitter) (entry : String × SplitterEntry) :
    Except BuildError Splitter :=
  let (name, entry) := entry
  if (find? accepted name).isSome then .error (.repeatedSplitter name)
  else .ok (ofEntry name entry)

def intake (entries : Section SplitterEntry) : Intake Splitter :=
  takeIn accept [] entries

/-- A splitter shares neither its name nor its callback with a decoder. -/
def checkApart (decoders : List Decoder) : List Splitter → Except BuildError Unit
  | [] => .ok ()
  | splitter :: splitters =>
      if (Decoder.find? decoders splitter.name).isSome then
        .error (.ambiguousCallback splitter.name)
      else if splitter.callback ∈ decoders.map (·.callback) then
        .error (.repeatedIdentifier splitter.name splitter.callback)
      else checkApart decoders splitters

end Splitter

end DecoderTables
