import DecoderTables.Json.Value
import Mathlib.Data.List.Induction
import Mathlib.Data.List.Nodup

/-!
Values as trees: how deep their brackets nest, and what becomes of the names that an object
repeats. A repeated name keeps the place of its first and the value of its last occurrence.
-/

namespace DecoderTables.Json

/-- An induction over a value has its items, and the values of its members, for hypothesis. -/
theorem Value.inductionOn {motive : Value → Prop} (null : motive .null)
    (bool : ∀ b, motive (.bool b)) (number : ∀ n, motive (.number n))
    (string : ∀ s, motive (.string s))
    (array : ∀ items, (∀ item ∈ items, motive item) → motive (.array items))
    (object : ∀ members, (∀ m ∈ members, motive m.2) → motive (.object members)) (v : Value) :
    motive v :=
  @Value.rec motive (fun items => ∀ item ∈ items, motive item)
    (fun members => ∀ m ∈ members, motive m.2) (fun m => motive m.2)
    null bool number string array object
    (fun _ absent => absurd absent List.not_mem_nil)
    (fun _ _ first rest => List.forall_mem_cons.mpr ⟨first, rest⟩)
    (fun _ absent => absurd absent List.not_mem_nil)
    (fun _ _ first rest => List.forall_mem_cons.mpr ⟨first, rest⟩)
    (fun _ _ value => value) v

mutual

/-- The brackets around the innermost part of a value. -/
def Value.depth : Value → Nat
  | .array items => Value.itemsDepth items + 1
  | .object members => Value.membersDepth members + 1
  | _ => 0

def Value.itemsDepth : List Value → Nat
  | [] => 0
  | item :: items => max item.depth (Value.itemsDepth items)

def Value.membersDepth : Members → Nat
  | [] => 0
  | (_, v) :: members => max v.depth (Value.membersDepth members)

end

theorem Value.itemsDepth_le_iff {items : List Value} {depth : Nat} :
    Value.itemsDepth items ≤ depth ↔ ∀ item ∈ items, item.depth ≤ depth := by
  induction items with
  | nil => simp [Value.itemsDepth]
  | cons item items ih => rw [Value.itemsDepth, Nat.max_le, ih, List.forall_mem_cons]

theorem Value.membersDepth_le_iff {members : Members} {depth : Nat} :
    Value.membersDepth members ≤ depth ↔ ∀ m ∈ members, m.2.depth ≤ depth := by
  induction members with
  | nil => simp [Value.membersDepth]
  | cons m members ih => rw [Value.membersDepth, Nat.max_le, ih, List.forall_mem_cons]

theorem Value.exists_items_limit {items : List Value} {depth : Nat}
    (limit : (Value.array items).depth ≤ depth) :
    ∃ less, depth = less + 1 ∧ ∀ item ∈ items, item.depth ≤ less := by
  rw [Value.depth] at limit
  exact ⟨depth - 1, by omega, Value.itemsDepth_le_iff.mp (by omega)⟩

theorem Value.exists_members_limit {members : Members} {depth : Nat}
    (limit : (Value.object members).depth ≤ depth) :
    ∃ less, depth = less + 1 ∧ ∀ m ∈ members, m.2.depth ≤ less := by
  rw [Value.depth] at limit
  exact ⟨depth - 1, by omega, Value.membersDepth_le_iff.mp (by omega)⟩

namespace Members

def names (members : Members) : List String :=
  members.map Prod.fst

/-- Each name once, in the order of the first occurrences, with its last value. -/
def merged (members : Members) : Members :=
  members.names.eraseDups.filterMap fun name =>
    (Members.get? members.reverse name).map (name, ·)

theorem eraseDups_concat (names : List String) (name : String) :
    (names ++ [name]).eraseDups =
      if name ∈ names then names.eraseDups else names.eraseDups ++ [name] := by
  rw [List.eraseDups_append]
  split
  · next present => simp [List.removeAll, present]
  · next absent => simp [List.removeAll, absent, List.eraseDups_cons]

theorem nodup_eraseDups (names : List String) : names.eraseDups.Nodup := by
  induction names using List.reverseRecOn with
  | nil => exact List.nodup_nil
  | append_singleton names name ih =>
    rw [eraseDups_concat]
    split
    · exact ih
    · next absent =>
        rw [← List.concat_eq_append]
        exact List.Nodup.concat (mt List.mem_eraseDups.mp absent) ih

theorem put_of_notMem {members : Members} {name : String} (absent : name ∉ members.names)
    (v : Value) : members.put name v = members ++ [(name, v)] := by
  induction members with
  | nil => rfl
  | cons m members ih =>
    rw [names, List.map_cons, List.mem_cons, not_or] at absent
    rw [put, if_neg (Ne.symm absent.1), ih absent.2, List.cons_append]

/-- Putting a member into the members that a list of names has. -/
theorem put_filterMap {names : List String} {found : String → Option Value}
    (distinct : names.Nodup) (present : ∀ name ∈ names, (found name).isSome) (name : String)
    (v : Value) :
    put (names.filterMap fun key => (found key).map (key, ·)) name v =
      (if name ∈ names then names else names ++ [name]).filterMap fun key =>
        (if key = name then some v else found key).map (key, ·) := by
  induction names with
  | nil => simp [put]
  | cons first names ih =>
    obtain ⟨old, is⟩ := Option.isSome_iff_exists.mp (present first List.mem_cons_self)
    obtain ⟨apart, distinct⟩ := List.nodup_cons.mp distinct
    have rest := ih distinct fun name member => present name (List.mem_cons_of_mem _ member)
    by_cases same : first = name
    · subst same
      have others : ∀ key ∈ names, (if key = first then some v else found key) = found key :=
        fun key member => if_neg (ne_of_mem_of_not_mem member apart)
      rw [if_pos List.mem_cons_self, List.filterMap_cons_some (by rw [is]; rfl),
        List.filterMap_cons_some (by rw [if_pos rfl]; rfl), put, if_pos rfl]
      exact congrArg _ (List.filterMap_congr fun key member => by rw [others key member])
    · have inside : name ∈ first :: names ↔ name ∈ names := by
        rw [List.mem_cons, or_iff_right (Ne.symm same)]
      have front : (if name ∈ first :: names then first :: names else first :: names ++ [name]) =
          first :: if name ∈ names then names else names ++ [name] := by
        simp only [inside]
        split <;> rfl
      rw [List.filterMap_cons_some (by rw [is]; rfl), put, if_neg same, rest, front,
        List.filterMap_cons_some (by rw [if_neg same, is]; rfl)]

theorem get?_cons (key name : String) (v : Value) (members : Members) :
    get? ((name, v) :: members) key = if key = name then some v else members.get? key := by
  rw [get?, get?, List.lookup_cons]
  cases same : key == name <;> simp_all

theorem merged_concat (members : Members) (name : String) (v : Value) :
    Members.merged (members ++ [(name, v)]) = members.merged.put name v := by
  have present : ∀ key ∈ members.names.eraseDups, (get? members.reverse key).isSome := by
    intro key member
    obtain ⟨m, inside, rfl⟩ := List.mem_map.mp (List.mem_eraseDups.mp member)
    exact List.lookup_isSome_iff.mpr ⟨m, List.mem_reverse.mpr inside, beq_self_eq_true _⟩
  have all : (names (members ++ [(name, v)])).eraseDups =
      if name ∈ members.names.eraseDups then members.names.eraseDups
      else members.names.eraseDups ++ [name] := by
    rw [names, List.map_append, List.map_singleton, eraseDups_concat]
    simp only [List.mem_eraseDups, names]
  rw [merged, merged, put_filterMap (nodup_eraseDups _) present, all, List.reverse_concat]
  simp only [get?_cons]

theorem foldl_put (members : Members) :
    members.foldl (fun found m => Members.put found m.1 m.2) [] = members.merged := by
  induction members using List.reverseRecOn with
  | nil => rfl
  | append_singleton members m ih =>
    rw [List.foldl_append, ih, merged_concat]
    rfl

theorem merged_of_nodup {members : Members} (distinct : members.names.Nodup) :
    members.merged = members := by
  induction members using List.reverseRecOn with
  | nil => rfl
  | append_singleton members m ih =>
    rw [names, List.map_append, List.nodup_append] at distinct
    obtain ⟨distinct, _, apart⟩ := distinct
    have absent : m.1 ∉ Members.names members := fun member => apart _ member _ (by simp) rfl
    rw [merged_concat, ih distinct, put_of_notMem absent]

end Members

mutual

/-- The value with the repeated names of all its objects merged. -/
def Value.merged : Value → Value
  | .array items => .array (Value.mergedItems items)
  | .object members => .object (Value.mergedMembers members).merged
  | v => v

def Value.mergedItems : List Value → List Value
  | [] => []
  | item :: items => item.merged :: Value.mergedItems items

def Value.mergedMembers : Members → Members
  | [] => []
  | (name, v) :: members => (name, v.merged) :: Value.mergedMembers members

end

theorem Value.mergedItems_eq_map (items : List Value) :
    Value.mergedItems items = items.map Value.merged := by
  induction items with
  | nil => rw [Value.mergedItems, List.map_nil]
  | cons item items ih => rw [Value.mergedItems, List.map_cons, ih]

theorem Value.mergedMembers_eq_map (members : Members) :
    Value.mergedMembers members = members.map fun m => (m.1, m.2.merged) := by
  induction members with
  | nil => rw [Value.mergedMembers, List.map_nil]
  | cons m members ih => rw [Value.mergedMembers, List.map_cons, ih]

/-- A value in which no object repeats a name. -/
inductive Value.Distinct : Value → Prop
  | null : Value.null.Distinct
  | bool (b : Bool) : (Value.bool b).Distinct
  | number (n : Number) : (Value.number n).Distinct
  | string (s : String) : (Value.string s).Distinct
  | array {items : List Value} (each : ∀ item ∈ items, item.Distinct) :
      (Value.array items).Distinct
  | object {members : Members} (names : members.names.Nodup)
      (each : ∀ m ∈ members, m.2.Distinct) : (Value.object members).Distinct

theorem Value.Distinct.merged_eq {v : Value} (distinct : v.Distinct) : v.merged = v := by
  induction distinct with
  | null | bool | number | string => rfl
  | array each ih => rw [Value.merged, mergedItems_eq_map, List.map_congr_left ih, List.map_id']
  | object names each ih =>
    have same : ∀ m ∈ _, (fun m : String × Value => (m.1, m.2.merged)) m = m :=
      fun m member => Prod.ext rfl (ih m member)
    rw [Value.merged, mergedMembers_eq_map, List.map_congr_left same, List.map_id',
      Members.merged_of_nodup names]

end DecoderTables.Json
