/-!
Sets of flags as lists in ascending order without repetition.
-/

namespace DecoderTables.FlagSet

def insert (flag : String) : List String → List String
  | [] => [flag]
  | first :: rest =>
      if flag < first then flag :: first :: rest
      else if flag = first then first :: rest
      else first :: insert flag rest

def ofList : List String → List String
  | [] => []
  | flag :: flags => insert flag (ofList flags)

theorem mem_insert {flag other : String} {flags : List String} :
    other ∈ insert flag flags ↔ other = flag ∨ other ∈ flags := by
  induction flags with
  | nil => simp [insert]
  | cons first rest ih =>
      unfold insert
      split
      · simp
      · split
        · next same => subst same; simp
        · simp only [List.mem_cons, ih]
          exact or_left_comm

theorem mem_ofList {flag : String} {flags : List String} :
    flag ∈ ofList flags ↔ flag ∈ flags := by
  induction flags with
  | nil => simp [ofList]
  | cons first rest ih => simp [ofList, mem_insert, ih]

end DecoderTables.FlagSet
