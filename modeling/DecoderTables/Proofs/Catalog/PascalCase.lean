import DecoderTables.Identifier
import DecoderTables.Proofs.Text.Pieces
import DecoderTables.Proofs.Text.Upper

/-!
Capitalised names. An underscore between two names is no more than the place where their forms are
joined, so the form of a name has none, and there is nothing left to do in it.
-/

namespace DecoderTables.Identifier

theorem segments_append_underscore (left right : List Char) :
    segments (left ++ '_' :: right) = segments left ++ segments right := by
  rw [segments, List.splitOn_append_cons_self, List.filter_append]
  rfl

theorem not_mem_of_mem_segments {name segment : List Char} (member : segment ∈ segments name) :
    '_' ∉ segment :=
  Text.not_mem_of_mem_splitOn (List.mem_filter.mp member).1

theorem ne_nil_of_mem_segments {name segment : List Char} (member : segment ∈ segments name) :
    segment ≠ [] := by
  have filled := (List.mem_filter.mp member).2
  simpa [List.isEmpty_iff] using filled

theorem not_mem_capitalize {segment : List Char} (plain : '_' ∉ segment) :
    '_' ∉ capitalize segment := by
  cases segment with
  | nil => exact plain
  | cons c rest =>
    obtain ⟨other, free⟩ := not_or.mp (mt List.mem_cons.mpr plain)
    exact List.not_mem_append (Text.not_mem_upper (Ne.symm other)) free

theorem not_mem_pascalCase (name : String) : '_' ∉ (pascalCase name).toList := by
  rw [pascalCase, String.toList_ofList]
  intro inside
  obtain ⟨segment, member, here⟩ := List.mem_flatMap.mp inside
  exact not_mem_capitalize (not_mem_of_mem_segments member) here

theorem pascalCase_append_underscore (first second : String) :
    pascalCase (first ++ "_" ++ second) = pascalCase first ++ pascalCase second := by
  have joined : (first ++ "_" ++ second).toList = first.toList ++ '_' :: second.toList := by
    rw [String.toList_append, String.toList_append, List.append_assoc]
    rfl
  rw [pascalCase, joined, segments_append_underscore, List.flatMap_append, String.ofList_append]
  rfl

/-- A name without underscores is one segment. -/
theorem pascalCase_of_not_mem {name : String} (plain : '_' ∉ name.toList) :
    pascalCase name = String.ofList (capitalize name.toList) := by
  rw [pascalCase, segments, List.splitOn_eq_singleton plain]
  cases name.toList with
  | nil => rfl
  | cons c rest => rw [List.filter_cons_of_pos (by rfl), List.filter_nil, List.flatMap_singleton]

/-- The form of a name starts with a character that is its own upper case. -/
theorem capitalize_pascalCase (name : String) :
    capitalize (pascalCase name).toList = (pascalCase name).toList := by
  rw [pascalCase, String.toList_ofList]
  cases parts : segments name.toList with
  | nil => rfl
  | cons segment others =>
    obtain ⟨c, rest, rfl⟩ := List.exists_cons_of_ne_nil
      (ne_nil_of_mem_segments (parts ▸ List.mem_cons_self))
    obtain ⟨first, more, image, own⟩ := Text.exists_upper_eq_cons c
    simp only [List.flatMap_cons, capitalize, image, List.cons_append, own, List.nil_append]

/-- A capitalised name is joined from those of its parts, has no underscore, and is its own
capitalised name. -/
theorem pascalCase_absorbs_underscores (first second : String) :
    pascalCase (first ++ "_" ++ second) = pascalCase first ++ pascalCase second ∧
      '_' ∉ (pascalCase first).toList ∧ pascalCase (pascalCase first) = pascalCase first := by
  refine ⟨pascalCase_append_underscore first second, not_mem_pascalCase first, ?_⟩
  rw [pascalCase_of_not_mem (not_mem_pascalCase first), capitalize_pascalCase,
    String.ofList_toList]

end DecoderTables.Identifier
