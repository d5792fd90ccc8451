import DecoderTables.Command.Arguments

/-!
The work of the command. Its status is zero if nothing went wrong and no header is out of date.
-/

namespace DecoderTables.Command

def version : String := "0.1.0"

def help : String :=
  "Generates C++ opcode decoder tables from a JSON specification\n\n" ++
  "Usage: decgen [OPTIONS] SPEC\n\n" ++
  String.join (Setting.all.map fun setting => "    --" ++ setting.longName ++ "=VALUE\n") ++
  "    --check\n    -h, --help\n    -V, --version\n"

/-- What keeps the command from its work. -/
inductive Failure where
  | generator (error : GeneratorError)
  | output (fault : FileFault)

def Failure.message : Failure → String
  | .generator error => error.message
  | .output fault => fault.message

section

variable {m : Type → Type} [Monad m] [Host m]

def ColorMode.color : ColorMode → m Listing.Color
  | .off => return .off
  | .on => return .on
  | .auto => return if ← Host.showsColors then .on else .off

/-- A reader that has gone away is not worth a complaint. -/
def print (text : String) : ExceptT Failure m Unit := ExceptT.mk do
  match ← Host.output text with
  | .ok () | .error .brokenPipe => return .ok ()
  | .error fault => return .error (.output fault)

def reportStale (color : Listing.Color) : List Stale → ExceptT Failure m Unit
  | [] => pure ()
  | stale :: more => do
      (Host.complain ("error: " ++ stale.path ++ " is out of date\n") : m Unit)
      print (Listing.diff color stale.path stale.current stale.expected)
      reportStale color more

def Task.runCheck (task : Task) : ExceptT Failure m Bool := do
  let stale ← (task.generator.check : Attempt m _).adapt Failure.generator
  if stale.isEmpty then return true
  let color ← (task.color.color : m Listing.Color)
  reportStale color stale
  return false

def Task.emitHeaders (task : Task) : ExceptT Failure m Unit := do
  let _ ← (task.generator.generate : Attempt m _).adapt Failure.generator

def Task.printTables (task : Task) (view : Listing.Color → Tables → String) :
    ExceptT Failure m Unit := do
  let tables ← (task.generator.build : Attempt m _).adapt Failure.generator
  let color ← (task.color.color : m Listing.Color)
  print (view color tables)

/-- Whether nothing is out of date. -/
def Task.run (task : Task) : ExceptT Failure m Bool := do
  if task.check then task.runCheck
  else
    match task.emit with
    | .headers => task.emitHeaders
    | .json => task.printTables fun _ tables => tables.json ++ "\n"
    | .table => task.printTables Listing.text
    return true

/-- Runs the command, and answers with its exit status. -/
def run (texts : List String) : m UInt32 := do
  match Request.ofArguments texts with
  | .help => do
      Host.announce help
      return 0
  | .version => do
      Host.announce ("Version: " ++ version ++ "\n\n")
      return 0
  | .wrong => do
      Host.complain "error: invalid arguments, see --help\n"
      return 1
  | .task task =>
      match ← ExceptT.run task.run with
      | .ok true => return 0
      | .ok false => return 1
      | .error failure => do
          Host.complain ("error: " ++ failure.message ++ "\n")
          return 1

end

end DecoderTables.Command
