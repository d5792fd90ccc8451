import DecoderTables.Catalog.BuildError

/-!
Taking entries one after the other. The first entry that is refused ends the intake; what was
accepted before it stays known.
-/

namespace DecoderTables

structure Intake (α : Type) where
  accepted : List α
  refused : Option BuildError

def Intake.result {α : Type} (intake : Intake α) : Except BuildError (List α) :=
  match intake.refused with
  | some fault => .error fault
  | none => .ok intake.accepted

/-- Each entry is judged by the items accepted before it. -/
def takeIn {α ε : Type} (accept : List α → ε → Except BuildError α) (accepted : List α) :
    List ε → Intake α
  | [] => ⟨accepted, none⟩
  | entry :: entries =>
      match accept accepted entry with
      | .ok item => takeIn accept (accepted ++ [item]) entries
      | .error fault => ⟨accepted, some fault⟩

end DecoderTables
