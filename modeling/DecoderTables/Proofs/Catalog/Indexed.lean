import DecoderTables.Catalog.Indexed
import DecoderTables.Proofs.Catalog.Accepted

/-!
What the index of a catalog knows. A catalog that only grew by new items at its end has the position
of every name in its index, and no other position; so look-ups find what a search of the items
finds, and items with the same names have the same index.
-/

namespace DecoderTables
open Json

theorem getElem?_append_singleton_eq_some_iff {α : Type} (items : List α) (item : α)
    (position : Nat) (wanted : α) :
    (items ++ [item])[position]? = some wanted ↔
      items[position]? = some wanted ∨ position = items.length ∧ item = wanted := by
  rcases Nat.lt_trichotomy position items.length with inside | rfl | outside
  · rw [List.getElem?_append_left inside]
    simp [Nat.ne_of_lt inside]
  · simp
  · have behind : (items ++ [item]).length ≤ position := by
      rw [List.length_append, List.length_singleton]
      omega
    rw [List.getElem?_eq_none behind, List.getElem?_eq_none outside.le]
    simp [Nat.ne_of_gt outside]

theorem map_eq_map_of_isEqv {α β : Type} {same : α → α → Bool} {view : α → β}
    (respects : ∀ item other, same item other = true → view item = view other)
    {items others : List α} (equal : items.isEqv others same = true) :
    items.map view = others.map view := by
  induction items generalizing others with
  | nil =>
    cases others with
    | nil => rfl
    | cons other others => cases equal
  | cons item items ih =>
    cases others with
    | nil => cases equal
    | cons other others =>
      rw [List.isEqv_cons_cons, Bool.and_eq_true] at equal
      rw [List.map_cons, List.map_cons, respects item other equal.1, ih equal.2]

/-- The item with a name, if the names are distinct. -/
theorem find?_eq_some_of_getElem? {α : Type} (name : α → String) {items : List α}
    (distinct : (items.map name).Nodup) {position : Nat} {item : α}
    (there : items[position]? = some item) :
    items.find? (name · = name item) = some item := by
  have single := filter_key_eq name items distinct (name item)
  have member : item ∈ items.filter (name · = name item) :=
    List.mem_filter.mpr ⟨List.mem_of_getElem? there, decide_eq_true rfl⟩
  rw [single] at member
  exact Option.mem_toList.mp member

namespace Catalog

variable {α : Type} (name : α → String)

/-- The catalog that items make one after the other. -/
def ofItems (items : List α) : Catalog α :=
  items.foldl (fun catalog item => catalog.push (name item) item) empty

theorem ofItems_append_singleton (items : List α) (item : α) :
    ofItems name (items ++ [item]) = (ofItems name items).push (name item) item := by
  rw [ofItems, List.foldl_append]
  rfl

@[simp]
theorem items_ofItems (items : List α) : (ofItems name items).items = items := by
  induction items using List.reverseRecOn with
  | nil => rfl
  | append_singleton items item ih => rw [ofItems_append_singleton, push, ih]

theorem contains_ofItems (items : List α) (key : String) :
    (ofItems name items).contains key = decide (key ∈ items.map name) := by
  induction items using List.reverseRecOn with
  | nil => rfl
  | append_singleton items item ih =>
    rw [contains, decide_eq_decide] at ih ⊢
    rw [ofItems_append_singleton, push, Finmap.mem_insert, ih, List.map_append, List.mem_append,
      List.map_singleton, List.mem_singleton, or_comm]

/-- Every push keeps this: the index holds the positions of the names and nothing else. -/
theorem lookup_ofItems (items : List α) (distinct : (items.map name).Nodup) (key : String)
    (position : Nat) :
    (ofItems name items).index.lookup key = some position ↔
      (items.map name)[position]? = some key := by
  induction items using List.reverseRecOn with
  | nil => simp [ofItems, empty]
  | append_singleton items item ih =>
    obtain ⟨before, fresh⟩ := (nodup_map_append_singleton name items item).mp distinct
    rw [ofItems_append_singleton, List.map_append, List.map_singleton,
      getElem?_append_singleton_eq_some_iff, push, items_ofItems, List.length_map]
    by_cases same : name item = key
    · subst same
      have absent : (items.map name)[position]? ≠ some (name item) :=
        fun there => fresh (List.mem_of_getElem? there)
      rw [Finmap.lookup_insert, Option.some.injEq, eq_comm]
      simp only [absent, and_true, false_or]
    · rw [Finmap.lookup_insert_of_ne _ (Ne.symm same), ih before]
      simp [same]

theorem lt_of_lookup_ofItems {items : List α} (distinct : (items.map name).Nodup) {key : String}
    {position : Nat} (found : (ofItems name items).index.lookup key = some position) :
    position < items.length := by
  have there := (lookup_ofItems name items distinct key position).mp found
  simpa using (List.getElem?_eq_some_iff.mp there).1

/-- A look-up stays inside of the items and finds what a search of them finds. -/
theorem get_ofItems (items : List α) (distinct : (items.map name).Nodup) (key : String) :
    (ofItems name items).get key = .ok (items.find? (name · = key)) := by
  unfold get
  cases found : (ofItems name items).index.lookup key with
  | none =>
    have absent : ¬(items.find? (name · = key)).isSome = true := by
      rw [isSome_find?_name, List.mem_iff_getElem?]
      intro given
      obtain ⟨position, there⟩ := given
      rw [← lookup_ofItems name items distinct, found] at there
      cases there
    rw [Option.not_isSome_iff_eq_none.mp absent]
  | some position =>
    have there := (lookup_ofItems name items distinct key position).mp found
    rw [List.getElem?_map, Option.map_eq_some_iff] at there
    obtain ⟨item, there, rfl⟩ := there
    rw [find?_eq_some_of_getElem? name distinct there]
    simp only [items_ofItems, there]

/-- A catalog that pushes did not make. -/
example : get ⟨["b"], Finmap.singleton "a" 1⟩ "a" = .error .outOfRange :=
  rfl

/-- The index depends on the names alone. -/
theorem index_ofItems_eq {items others : List α} (distinct : (items.map name).Nodup)
    (names : items.map name = others.map name) :
    (ofItems name items).index = (ofItems name others).index := by
  apply Finmap.ext_lookup
  intro key
  apply Option.ext
  intro position
  rw [lookup_ofItems name items distinct, lookup_ofItems name others (names ▸ distinct), names]

theorem equals_ofItems {same : α → α → Bool}
    (respects : ∀ item other, same item other = true → name item = name other)
    {items : List α} (distinct : (items.map name).Nodup) (others : List α) :
    (ofItems name items).equals same (ofItems name others) = items.isEqv others same := by
  rw [equals, items_ofItems, items_ofItems]
  cases equal : items.isEqv others same with
  | false => rfl
  | true =>
    have indices := index_ofItems_eq name distinct (map_eq_map_of_isEqv respects equal)
    rw [Bool.true_and, decide_eq_true_eq]
    exact indices

end Catalog

end DecoderTables
