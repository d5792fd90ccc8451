import DecoderTables.Document.Reader
import DecoderTables.Files.Host
import DecoderTables.Header.Decoders
import DecoderTables.Header.Instructions

/-!
From a specification file to header files. All headers are rendered before anything is written;
each is written to a temporary file first, and the temporary files take their places only after
all of them were written.
-/

namespace DecoderTables
open Json

inductive Cause where
  | sourceFile (fault : FileFault)
  | unreadable (fault : ReadError)
  | inconsistent (fault : BuildError)
  /-- The selector, given by its lowest bit, does not fit in a half-word. -/
  | opcodeRange (first : UInt32)
  | outputDirectory (fault : FileFault)
  | outputFile (fault : FileFault)
  | generate (fault : FileFault)

structure GeneratorError where
  path : Path
  cause : Cause

/-- What lies behind a cause, in words. -/
def Cause.reason? : Cause → Option String
  | .sourceFile fault | .outputDirectory fault | .outputFile fault | .generate fault =>
      some fault.message
  | .unreadable fault => some fault.message
  | .inconsistent fault => some fault.message
  | .opcodeRange _ => none

def GeneratorError.message (error : GeneratorError) : String :=
  let quoted := "\"" ++ error.path ++ "\""
  match error.cause with
  | .sourceFile fault => "failed to read source file " ++ quoted ++ ", " ++ fault.message
  | .unreadable fault => "failed to parse " ++ quoted ++ ", " ++ fault.message
  | .inconsistent fault => error.path ++ ": " ++ fault.message
  | .opcodeRange first =>
      "failed to render " ++ quoted ++ ", opcode field at bit " ++ toString first.toNat ++
        " does not fit in 16 bits, expected at most " ++
        toString HeaderOptions.opcodeFirstMax.toNat
  | .outputDirectory fault =>
      "failed to create output directory " ++ quoted ++ ", " ++ fault.message
  | .outputFile fault => "failed to create output file " ++ quoted ++ ", " ++ fault.message
  | .generate fault => "failed to generate output file " ++ quoted ++ ", " ++ fault.message

/-- A rendered header and the path where it belongs. -/
structure Artifact where
  path : Path
  text : String
deriving DecidableEq

/-- A header whose file is missing or differs. -/
structure Stale where
  path : Path
  /-- The content of the file, empty if there is none. -/
  current : String
  expected : String
deriving DecidableEq

structure Generator where
  source : Path
  directory : Path := "."
  instrOutput : Path := "instr.h"
  decodersOutput : Path := "op_decoders.h"
  options : HeaderOptions := {}
  /-- Whether a build script is told to watch the source. -/
  rerunIfChanged : Bool := false

/-- An action on the machine that may end with an error. -/
abbrev Attempt (m : Type → Type) (α : Type) := ExceptT GeneratorError m α

section

variable {m : Type → Type} [Monad m] [Host m]

/-- Blames a fault on a path. -/
def blaming {ε α : Type} (path : Path) (cause : ε → Cause) (action : m (Except ε α)) :
    Attempt m α :=
  ExceptT.mk do return (← action).mapError fun fault => ⟨path, cause fault⟩

def Artifact.temporary (artifact : Artifact) : Path :=
  artifact.path.temporary

/-- Makes the file of a path and the directories above it. -/
def createWithParents (path : Path) : Attempt m Unit := do
  match path.parent? with
  | some parent => blaming parent .outputDirectory (makeDirectories parent.upward)
  | none => pure ()
  blaming path .outputFile (Host.createFile path)

def writeTemporary (artifact : Artifact) : Attempt m Unit := do
  createWithParents artifact.temporary
  blaming artifact.path .generate (Host.writeFile artifact.temporary artifact.text)

/-- Removes files; one that cannot be removed stays. -/
def removeAll : List Path → m Unit
  | [] => pure ()
  | path :: paths => do
      let _ ← Host.removeFile path
      removeAll paths

/-- Does the first action; at an error the files of the paths are removed. -/
def cleaningUp (paths : List Path) (action : Attempt m Unit) : Attempt m Unit :=
  tryCatch action fun error => do
    (removeAll paths : m Unit)
    throw error

/-- Writes the temporary files after those in `written`. -/
def writeTemporaries (written : List Path) : List Artifact → Attempt m Unit
  | [] => pure ()
  | artifact :: artifacts => do
      cleaningUp (written ++ [artifact.temporary]) (writeTemporary artifact)
      writeTemporaries (written ++ [artifact.temporary]) artifacts

/-- Moves temporary files into place. -/
def moveIntoPlace : List Artifact → Attempt m Unit
  | [] => pure ()
  | artifact :: artifacts => do
      cleaningUp ((artifact :: artifacts).map Artifact.temporary)
        (blaming artifact.path .generate (Host.rename artifact.temporary artifact.path))
      (Host.notify (.generated artifact.path) : m Unit)
      moveIntoPlace artifacts

/-- Writes all artifacts or none. Artifacts that took their places before a fault stay there. -/
def writeArtifacts (artifacts : List Artifact) : Attempt m Unit := do
  writeTemporaries [] artifacts
  moveIntoPlace artifacts

def notifyAll : List Notice → m Unit
  | [] => pure ()
  | notice :: notices => do
      Host.notify notice
      notifyAll notices

namespace Generator

def load (generator : Generator) : Attempt m Document := do
  if generator.rerunIfChanged then
    (Host.announce ("cargo:rerun-if-changed=" ++ generator.source ++ "\n") : m Unit)
  let text ← blaming generator.source .sourceFile (readText generator.source)
  blaming generator.source .unreadable (pure (Document.read text))

def build (generator : Generator) : Attempt m Tables := do
  let document ← generator.load
  (notifyAll (Notice.ofBuild document) : m Unit)
  blaming generator.source .inconsistent (pure (Tables.build document))

def instrPath (generator : Generator) : Path :=
  generator.directory.join generator.instrOutput

def decodersPath (generator : Generator) : Path :=
  generator.directory.join generator.decodersOutput

/-- The decoder header and the instruction header. -/
def render (generator : Generator) (tables : Tables) :
    Except GeneratorError (List Artifact) :=
  match Header.decoders? tables generator.options with
  | none => .error ⟨generator.decodersPath, .opcodeRange generator.options.opcodeFirst⟩
  | some decoders =>
      .ok [⟨generator.decodersPath, decoders⟩,
        ⟨generator.instrPath, Header.instructions tables generator.options⟩]

def buildAndRender (generator : Generator) : Attempt m (List Artifact) := do
  let tables ← generator.build
  generator.render tables

/-- Writes the headers, and answers with their paths. -/
def generate (generator : Generator) : Attempt m (List Path) := do
  let artifacts ← generator.buildAndRender
  writeArtifacts artifacts
  return artifacts.map (·.path)

/-- The content of a file, empty if there is none. -/
def currentText (path : Path) : m (Except FileFault String) := do
  match ← readText path with
  | .error .notFound => return .ok ""
  | found => return found

/-- Those of the artifacts whose files are missing or differ. -/
def staleAmong : List Artifact → Attempt m (List Stale)
  | [] => pure []
  | artifact :: artifacts => do
      let current ← blaming artifact.path .sourceFile (currentText artifact.path)
      if current = artifact.text then staleAmong artifacts
      else
        (Host.notify (.stale artifact.path) : m Unit)
        let stale ← staleAmong artifacts
        return ⟨artifact.path, current, artifact.text⟩ :: stale

/-- Compares the headers with the files. Nothing is written. -/
def check (generator : Generator) : Attempt m (List Stale) := do
  let artifacts ← generator.buildAndRender
  staleAmong artifacts

end Generator

end

end DecoderTables
