import DecoderTables.Files.Host

/-!
A file system in memory: a tree of files and directories, and the working directory where paths
without a slash in front start. Faults come in the order in which a path is followed from left to
right.
-/

namespace DecoderTables

inductive Node where
  | file (bytes : ByteArray)
  | directory

/-- A place in the tree: the names from the root down. -/
abbrev Place := List String

structure Disk where
  nodes : List (Place × Node)
  working : Place := []

namespace Disk

def empty : Disk := { nodes := [] }

def get? (disk : Disk) : Place → Option Node
  | [] => some .directory
  | place => disk.nodes.lookup place

def erase (disk : Disk) (place : Place) : Disk :=
  { disk with nodes := disk.nodes.filter (·.1 ≠ place) }

def put (disk : Disk) (place : Place) (node : Node) : Disk :=
  { disk with nodes := (place, node) :: (disk.erase place).nodes }

def longestName : Nat := 255

def longestPath : Nat := 4095

/-- The node of a name in a directory, if there is one. -/
def child? (disk : Disk) (directory : Place) (name : String) :
    Except FileFault (Option Node) :=
  if longestName < name.utf8ByteSize then .error .nameTooLong
  else .ok (disk.get? (directory ++ [name]))

/-- Follows names through directories. -/
def follow (disk : Disk) (directory : Place) : List String → Except FileFault Place
  | [] => .ok directory
  | "." :: names => follow disk directory names
  | ".." :: names => follow disk directory.dropLast names
  | name :: names => do
      match ← disk.child? directory name with
      | none => .error .notFound
      | some (.file _) => .error .notDirectory
      | some .directory => follow disk (directory ++ [name]) names

/-- The directory of a path, the last name if that is not a dot, and whether a slash follows. -/
structure Target where
  directory : Place
  name : Option String
  slash : Bool

/-- Where a path starts. -/
def start (disk : Disk) (path : Path) : Place :=
  if path.toList.head? = some '/' then [] else disk.working

def isDots (name : String) : Bool :=
  name = "." || name = ".."

/-- A path that holds a zero leads nowhere, whatever else is wrong with it. -/
def target (disk : Disk) (path : Path) : Except FileFault Target :=
  if '\x00' ∈ path.toList then .error .zeroByte
  else if path.isEmpty then .error .notFound
  else if longestPath < path.utf8ByteSize then .error .nameTooLong
  else
    let names := (Path.pieces path).filter (!·.isEmpty)
    let slash := path.toList.getLast? = some '/'
    match names.getLast? with
    | none => .ok ⟨[], none, slash⟩
    | some last =>
        if isDots last then do
          let directory ← disk.follow (disk.start path) names
          return ⟨directory, none, slash⟩
        else do
          let directory ← disk.follow (disk.start path) names.dropLast
          return ⟨directory, some last, slash⟩

/-- The node of a path. -/
def node (disk : Disk) (path : Path) : Except FileFault Node := do
  let target ← disk.target path
  match target.name with
  | none => return .directory
  | some name =>
      match ← disk.child? target.directory name with
      | none => .error .notFound
      | some (.file bytes) => if target.slash then .error .notDirectory else return .file bytes
      | some .directory => return .directory

def readFile (disk : Disk) (path : Path) : Except FileFault ByteArray := do
  match ← disk.node path with
  | .file bytes => return bytes
  | .directory => .error .isDirectory

def isDirectory (disk : Disk) (path : Path) : Bool :=
  match disk.node path with
  | .ok .directory => true
  | _ => false

def makeDirectory (disk : Disk) (path : Path) : Except FileFault Disk := do
  let target ← disk.target path
  match target.name with
  | none => .error .alreadyExists
  | some name =>
      match ← disk.child? target.directory name with
      | some _ => .error .alreadyExists
      | none => return disk.put (target.directory ++ [name]) .directory

/-- A file of the path with the content, which may replace the content of a file. -/
def writeFile (disk : Disk) (path : Path) (bytes : ByteArray) : Except FileFault Disk := do
  let target ← disk.target path
  match target.name with
  | none => .error .isDirectory
  | some name =>
      if target.slash then .error .isDirectory
      else
        match ← disk.child? target.directory name with
        | some .directory => .error .isDirectory
        | _ => return disk.put (target.directory ++ [name]) (.file bytes)

def removeFile (disk : Disk) (path : Path) : Except FileFault Disk := do
  let target ← disk.target path
  match target.name with
  | none => .error .isDirectory
  | some name =>
      match ← disk.child? target.directory name with
      | none => .error .notFound
      | some .directory => .error .isDirectory
      | some (.file _) =>
          if target.slash then .error .notDirectory
          else return disk.erase (target.directory ++ [name])

/-- Gives a file another path. A directory is neither moved nor replaced. -/
def rename (disk : Disk) (source path : Path) : Except FileFault Disk := do
  let old ← disk.target source
  let new ← disk.target path
  match old.name, new.name with
  | some oldName, some newName =>
      match ← disk.child? old.directory oldName with
      | none => .error .notFound
      | some node =>
          let replaced ← disk.child? new.directory newName
          match node, replaced with
          | .directory, _ => .error .isDirectory
          | .file _, replaced =>
              if old.slash || new.slash then .error .notDirectory
              else
                match replaced with
                | some .directory => .error .isDirectory
                | _ =>
                    return (disk.erase (old.directory ++ [oldName])).put
                      (new.directory ++ [newName]) node
  | _, _ => .error .busy

end Disk

/-- A machine in memory: its files, and all that was written and told. No terminal belongs to it. -/
structure Machine where
  disk : Disk
  output : List String := []
  complaints : List String := []
  notices : List Notice := []

namespace Machine

def access {α : Type} (use : Disk → Except FileFault α) : StateM Machine (Except FileFault α) :=
  fun machine => (use machine.disk, machine)

def change (use : Disk → Except FileFault Disk) : StateM Machine (Except FileFault Unit) :=
  fun machine =>
    match use machine.disk with
    | .ok disk => (.ok (), { machine with disk })
    | .error fault => (.error fault, machine)

instance : Host (StateM Machine) where
  readFile path := access (·.readFile path)
  isDirectory path := fun machine => (machine.disk.isDirectory path, machine)
  makeDirectory path := change (·.makeDirectory path)
  createFile path := change (·.writeFile path .empty)
  writeFile path text := change (·.writeFile path text.toUTF8)
  rename source path := change (·.rename source path)
  removeFile path := change (·.removeFile path)
  output text machine := (.ok (), { machine with output := machine.output ++ [text] })
  announce text := modify fun machine => { machine with output := machine.output ++ [text] }
  complain text :=
    modify fun machine => { machine with complaints := machine.complaints ++ [text] }
  notify notice := modify fun machine => { machine with notices := machine.notices ++ [notice] }
  showsColors := pure false

end Machine

end DecoderTables
