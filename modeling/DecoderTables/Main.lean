import DecoderTables.Command.Run

/-!
The command on the machine that it runs on.
-/

namespace DecoderTables

def errorCode? : IO.Error → Option UInt32
  | .alreadyExists _ code _ | .noFileOrDirectory _ code _ | .inappropriateType _ code _
  | .invalidArgument _ code _ | .permissionDenied _ code _ => some code
  | .resourceBusy code _ | .resourceVanished code _ | .noSuchThing _ code _
  | .otherError code _ => some code
  | _ => none

/-- Some calls give the number of an error with a minus. -/
def errorNumber (code : UInt32) : UInt32 :=
  if code < 0x80000000 then code else 0 - code

def FileFault.ofError (error : IO.Error) : FileFault :=
  match (errorCode? error).map errorNumber with
  | some 2 => .notFound
  | some 13 => .other "Permission denied (os error 13)"
  | some 16 => .busy
  | some 17 => .alreadyExists
  | some 20 => .notDirectory
  | some 21 => .isDirectory
  | some 32 => .brokenPipe
  | some 36 => .nameTooLong
  | _ => .other (toString error)

def attempted {α : Type} (action : IO α) : IO (Except FileFault α) := do
  try
    return .ok (← action)
  catch error =>
    return .error (.ofError error)

/-- Writes at once, so that a fault is not met at the end of the program. -/
def printAtOnce (text : String) : IO Unit := do
  let stream ← IO.getStdout
  stream.putStr text
  stream.flush

/-- The output goes to a terminal that is able to show colours, and nobody asks for none. -/
def terminalShowsColors : IO Bool := do
  let refused ← IO.getEnv "NO_COLOR"
  let terminal ← IO.getEnv "TERM"
  let stream ← IO.getStdout
  return refused.all (· = "0") && terminal.any (· ≠ "dumb") && (← stream.isTty)

instance : Host IO where
  readFile path := attempted (IO.FS.readBinFile path)
  isDirectory path := return (← attempted (IO.FS.realPath (path ++ "/."))).isOk
  makeDirectory path := attempted (IO.FS.createDir path)
  createFile path := attempted (IO.FS.writeBinFile path .empty)
  writeFile path text := attempted (IO.FS.writeFile path text)
  rename source path := attempted (IO.FS.rename source path)
  removeFile path := attempted (IO.FS.removeFile path)
  output text := attempted (printAtOnce text)
  announce text := printAtOnce text
  complain text := IO.eprint text
  notify _ := return ()
  showsColors := terminalShowsColors

end DecoderTables

def main (arguments : List String) : IO UInt32 :=
  DecoderTables.Command.run arguments
