import DecoderTables.Header.Options
import DecoderTables.Text.Line

/-!
Lines of C++, and what the opaque fields of an entry add to them.
-/

namespace DecoderTables.Header
open Json

/-- Two spaces for each level. -/
def indent (level : Nat) : String :=
  String.ofList (List.replicate (2 * level) ' ')

def line (level : Nat) (text : String) : String :=
  indent level ++ text

/-- Every line ends with a line feed. -/
def textOf (lines : List String) : String :=
  String.join (lines.map (· ++ "\n"))

def note : String := "// Generated by decgen, do not edit."

def includes (paths : List String) : List String :=
  paths.map fun path => "#include \"" ++ path ++ "\""

/-- The name and the type of each data member that an instruction declares. -/
def dataMembers (instruction : Instruction) : List (String × String) :=
  match instruction.fields.get? "fields" with
  | some (.object members) =>
      members.map fun (name, v) =>
        match v with
        | .string type => (name, type)
        | _ => (name, "u32")
  | _ => []

def textItem? : Value → Option String
  | .string text => some text
  | _ => none

/-- The lines of the `body` field. -/
def bodyOf (fields : Members) : List String :=
  match fields.get? "body" with
  | some (.string text) => (Text.lines text.toList).map String.ofList
  | some (.array items) => items.filterMap textItem?
  | _ => []

/-- An empty line stays empty. -/
def bodyLines (level : Nat) (body : List String) : List String :=
  body.map fun text => if text.isEmpty then "" else line level text

end DecoderTables.Header
