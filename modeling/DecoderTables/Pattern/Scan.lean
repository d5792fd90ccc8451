import DecoderTables.Pattern.Run

/-!
The runs of a text by one scan over its characters. The scan keeps the place where the open run
started; a run is cut out of the text by the places of its first and its last byte when the scan
comes to its end. A cut can fail, since a place may be outside of the text or inside a character.
-/

namespace DecoderTables

namespace Text

/-- Each character with the place of its first byte. -/
def located (start : Nat) : List Char → List (Nat × Char)
  | [] => []
  | c :: text => (start, c) :: located (start + c.utf8Size) text

/-- The piece from the byte `first` to the byte `last`, if it lies in the text and starts and ends
between characters. -/
def slice? (text : String) (first last : Nat) : Option String :=
  if inside : (String.Pos.Raw.mk first).IsValid text ∧ (String.Pos.Raw.mk (last + 1)).IsValid text ∧
      first ≤ last + 1 then
    some (text.extract (text.pos ⟨first⟩ inside.1) (text.pos ⟨last + 1⟩ inside.2.1))
  else none

end Text

/-- A scan on its way: where the open run started, and the runs that have ended. -/
structure Scan where
  opened : Option Nat
  ended : List Run

namespace Scan

/-- Ends the run that started at the byte `first`, before the byte `stop`. -/
def close? (text : String) (ended : List Run) (first stop : Nat) : Option Scan :=
  match stop with
  | 0 => none
  | last + 1 => do
      let literal ← Text.slice? text first last
      return ⟨none, ended ++ [⟨first, literal⟩]⟩

/-- Looks at one character. -/
def step? (text : String) (scan : Scan) (item : Nat × Char) : Option Scan :=
  if isFixed item.2 then some { scan with opened := some (scan.opened.getD item.1) }
  else
    match scan.opened with
    | some first => close? text scan.ended first item.1
    | none => some scan

/-- Ends the run that is open at the end of the text. -/
def finish? (text : String) (scan : Scan) : Option (List Run) :=
  match scan.opened with
  | some first => (·.ended) <$> close? text scan.ended first text.utf8ByteSize
  | none => some scan.ended

end Scan

/-- The runs of a text, unless a cut fails. -/
def scan? (text : String) : Option (List Run) := do
  let scan ← (Text.located 0 text.toList).foldlM (Scan.step? text) ⟨none, []⟩
  scan.finish? text

end DecoderTables
