import DecoderTables.Files.Path
import DecoderTables.Notice

/-!
What the generator asks of the machine that it runs on: files, two streams of output, and notices.
-/

namespace DecoderTables

inductive FileFault where
  | notFound
  | busy
  | alreadyExists
  | notDirectory
  | isDirectory
  | brokenPipe
  | nameTooLong
  | zeroByte
  | notUtf8
  | other (text : String)
deriving DecidableEq

def FileFault.message : FileFault → String
  | .notFound => "No such file or directory (os error 2)"
  | .busy => "Device or resource busy (os error 16)"
  | .alreadyExists => "File exists (os error 17)"
  | .notDirectory => "Not a directory (os error 20)"
  | .isDirectory => "Is a directory (os error 21)"
  | .brokenPipe => "Broken pipe (os error 32)"
  | .nameTooLong => "File name too long (os error 36)"
  | .zeroByte => "file name contained an unexpected NUL byte"
  | .notUtf8 => "stream did not contain valid UTF-8"
  | .other text => text

class Host (m : Type → Type) where
  readFile : Path → m (Except FileFault ByteArray)
  isDirectory : Path → m Bool
  makeDirectory : Path → m (Except FileFault Unit)
  /-- Makes a file without content, also of a file that is there. -/
  createFile : Path → m (Except FileFault Unit)
  /-- Gives a created file its content. -/
  writeFile : Path → String → m (Except FileFault Unit)
  /-- Takes the place of a file that has the second path. -/
  rename : Path → Path → m (Except FileFault Unit)
  removeFile : Path → m (Except FileFault Unit)
  /-- Writes to the standard output. At a fault a part of the text may have been written. -/
  output : String → m (Except FileFault Unit)
  /-- Writes to the standard output; the program ends where that fails. -/
  announce : String → m Unit
  /-- Writes to the standard error; the program ends where that fails. -/
  complain : String → m Unit
  notify : Notice → m Unit
  /-- Whether colours can be shown on the standard output. -/
  showsColors : m Bool

section

variable {m : Type → Type} [Monad m] [Host m]

def readText (path : Path) : m (Except FileFault String) := do
  match ← Host.readFile path with
  | .error fault => return .error fault
  | .ok bytes =>
      match String.fromUTF8? bytes with
      | some text => return .ok text
      | none => return .error .notUtf8

/-- A directory that is there already is as good as a new one. -/
def ensureDirectory (path : Path) : m (Except FileFault Unit) := do
  match ← Host.makeDirectory path with
  | .ok () => return .ok ()
  | .error fault => if ← Host.isDirectory path then return .ok () else return .error fault

/-- Makes the first directory of the list, and those above it where they are missing. -/
def makeDirectories : List Path → m (Except FileFault Unit)
  | [] => return .ok ()
  | path :: above => do
      if path.isEmpty then return .ok ()
      match ← Host.makeDirectory path with
      | .ok () => return .ok ()
      | .error .notFound =>
          match ← makeDirectories above with
          | .ok () => ensureDirectory path
          | .error fault => return .error fault
      | .error fault => if ← Host.isDirectory path then return .ok () else return .error fault

end

end DecoderTables
