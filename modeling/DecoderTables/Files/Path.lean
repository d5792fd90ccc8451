/-!
Paths as they are written. A path has an anchor and parts between slashes; empty parts and single
dots name nothing of their own, but stay in the text.
-/

namespace DecoderTables

abbrev Path := String

namespace Path

/-- A second part that starts with a slash replaces the first; otherwise one slash stands between
them unless the first part is empty or ends with one. -/
def join (first second : Path) : Path :=
  if second.toList.head? = some '/' then second
  else if first.isEmpty || first.toList.getLast? = some '/' then first ++ second
  else first ++ "/" ++ second

/-- A file next to the one of the path. -/
def temporary (path : Path) : Path :=
  path ++ ".tmp"

inductive Anchor where
  | none
  | dot
  | root
deriving DecidableEq

/-- A path taken apart. -/
structure Parts where
  anchor : Anchor
  names : List String

def pieces (path : Path) : List String :=
  (path.toList.splitOn '/').map String.ofList

def parts (path : Path) : Parts :=
  match pieces path with
  | "" :: first :: rest => ⟨.root, first :: rest⟩
  | "." :: rest => ⟨.dot, rest⟩
  | names => ⟨.none, names⟩

namespace Parts

def text (parts : Parts) : Path :=
  let body := "/".intercalate parts.names
  match parts.anchor with
  | .none => body
  | .dot => if parts.names.isEmpty then "." else "./" ++ body
  | .root => "/" ++ body

def namesNothing (name : String) : Bool :=
  name = "" || name = "."

/-- The names without those at the end that name nothing. -/
def trimmed (names : List String) : List String :=
  (names.reverse.dropWhile namesNothing).reverse

/-- The path without its last name. -/
def parent? (parts : Parts) : Option Parts :=
  if (trimmed parts.names).isEmpty then
    match parts.anchor with
    | .dot => some ⟨.none, []⟩
    | _ => none
  else some ⟨parts.anchor, trimmed (trimmed parts.names).dropLast⟩

def size (parts : Parts) : Nat :=
  parts.names.length + if parts.anchor = .dot then 1 else 0

theorem length_trimmed_le (names : List String) : (trimmed names).length ≤ names.length := by
  have := (List.dropWhile_suffix namesNothing (l := names.reverse)).length_le
  simpa [trimmed] using this

theorem size_lt_of_parent? {parts parent : Parts} (found : parts.parent? = some parent) :
    parent.size < parts.size := by
  unfold parent? at found
  split at found
  · split at found
    · next dot =>
        cases found
        simp [size, dot]
    · cases found
  · next some_name =>
      cases found
      have outer := length_trimmed_le (trimmed parts.names).dropLast
      have inner := length_trimmed_le parts.names
      have positive : 0 < (trimmed parts.names).length := by
        cases names : trimmed parts.names with
        | nil => simp [names] at some_name
        | cons => simp
      simp only [List.length_dropLast] at outer
      simp only [size]
      omega

/-- The path and all paths above it, the nearest first. -/
def upward (parts : Parts) : List Parts :=
  match _ : parts.parent? with
  | some parent => parts :: upward parent
  | none => [parts]
termination_by parts.size
decreasing_by exact size_lt_of_parent? (by assumption)

end Parts

def parent? (path : Path) : Option Path :=
  (parts path).parent?.map (·.text)

/-- The path as it is written, and then those above it. -/
def upward (path : Path) : List Path :=
  path :: ((parts path).upward.drop 1).map (·.text)

end Path

end DecoderTables
