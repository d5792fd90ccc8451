import Mathlib.Data.List.Forall2
import Mathlib.Data.List.Nodup
import Mathlib.Data.List.Perm.Subperm
import Mathlib.Data.List.Range

/-!
Lists in another order. An order is a list of places; the items at these places, one after the
other, are the list in that order.
-/

namespace DecoderTables

/-- The items at the places of an order. -/
def pick {α : Type} (order : List Nat) (items : List α) : List α :=
  order.filterMap (items[·]?)

/-- Each place of a list of the length occurs once. -/
def IsOrder (order : List Nat) (length : Nat) : Prop :=
  order.Perm (List.range length)

instance (order : List Nat) (length : Nat) : Decidable (IsOrder order length) :=
  inferInstanceAs (Decidable (order.Perm (List.range length)))

/-- The order that puts the items back. -/
def back (order : List Nat) : List Nat :=
  (List.range order.length).map order.idxOf

section Orders

variable {α β : Type} {order : List Nat} {items : List α}

theorem pick_range (items : List α) : pick (List.range items.length) items = items := by
  unfold pick
  induction items with
  | nil => rfl
  | cons item items ih =>
    rw [List.length_cons, List.range_succ_eq_map, List.filterMap_cons_some (by rfl),
      List.filterMap_map]
    exact congrArg _ ih

theorem pick_map (change : α → β) (order : List Nat) (items : List α) :
    pick order (items.map change) = (pick order items).map change := by
  unfold pick
  rw [List.map_filterMap]
  apply List.filterMap_congr
  intro place _
  rw [List.getElem?_map]

theorem IsOrder.pick_perm (isOrder : IsOrder order items.length) :
    (pick order items).Perm items := by
  have perm := isOrder.filterMap (items[·]?)
  rwa [← pick, ← pick, pick_range] at perm

theorem IsOrder.length {length : Nat} (isOrder : IsOrder order length) :
    order.length = length :=
  (List.Perm.length_eq isOrder).trans List.length_range

theorem IsOrder.mem_iff {length : Nat} (isOrder : IsOrder order length) (place : Nat) :
    place ∈ order ↔ place < length :=
  (List.Perm.mem_iff isOrder).trans List.mem_range

theorem pick_forall₂ {related : α → β → Prop} {others : List β}
    (pairs : List.Forall₂ related items others) (order : List Nat) :
    List.Forall₂ related (pick order items) (pick order others) := by
  induction order with
  | nil => exact .nil
  | cons place order ih =>
    have length := pairs.length_eq
    unfold pick at ih ⊢
    by_cases inside : place < items.length
    · have held := List.getElem?_eq_getElem inside
      have other := List.getElem?_eq_getElem (length ▸ inside)
      rw [List.filterMap_cons_some held, List.filterMap_cons_some other]
      exact .cons (pairs.get inside (length ▸ inside)) ih
    · rw [List.filterMap_cons_none (List.getElem?_eq_none (Nat.le_of_not_lt inside)),
        List.filterMap_cons_none (List.getElem?_eq_none (length ▸ Nat.le_of_not_lt inside))]
      exact ih

theorem getElem?_pick (inside : ∀ place ∈ order, place < items.length) (index : Nat) :
    (pick order items)[index]? = order[index]?.bind (items[·]?) := by
  unfold pick
  induction order generalizing index with
  | nil => rfl
  | cons place order ih =>
    obtain ⟨first, rest⟩ := List.forall_mem_cons.mp inside
    have held := List.getElem?_eq_getElem first
    rw [List.filterMap_cons_some held]
    cases index with
    | zero => exact held.symm
    | succ index => exact ih rest index

theorem pick_back (isOrder : IsOrder order items.length) :
    pick (back order) (pick order items) = items := by
  have step : ∀ place ∈ List.range items.length,
      (pick order items)[order.idxOf place]? = items[place]? := by
    intro place inside
    have member := (isOrder.mem_iff place).mpr (List.mem_range.mp inside)
    rw [getElem?_pick (fun place known => (isOrder.mem_iff place).mp known),
      List.getElem?_idxOf member, Option.bind_some]
  rw [pick, back, List.filterMap_map, isOrder.length]
  exact (List.filterMap_congr step).trans (pick_range items)

theorem IsOrder.back {length : Nat} (isOrder : IsOrder order length) :
    IsOrder (back order) length := by
  have distinct : (DecoderTables.back order).Nodup := by
    apply List.Nodup.map_on _ List.nodup_range
    intro first firstInside second secondInside same
    rw [List.mem_range, isOrder.length, ← isOrder.mem_iff] at firstInside
    exact (List.idxOf_inj firstInside).mp same
  have inside : DecoderTables.back order ⊆ List.range length := by
    intro place member
    obtain ⟨index, known, rfl⟩ := List.mem_map.mp member
    rw [List.mem_range, isOrder.length, ← isOrder.mem_iff] at known
    rw [List.mem_range, ← isOrder.length]
    exact List.idxOf_lt_length_of_mem known
  apply (List.subperm_of_subset distinct inside).perm_of_length_le
  rw [DecoderTables.back, List.length_map, List.length_range, List.length_range, isOrder.length]

/-- The second list is the first in another order, up to what does not count. -/
structure Reordered (same : α → α → Prop) (order : List Nat) (first second : List α) : Prop where
  isOrder : IsOrder order first.length
  items : List.Forall₂ same (pick order first) second

namespace Reordered

variable {same : α → α → Prop} {first second : List α}

theorem length_eq (reordered : Reordered same order first second) :
    second.length = first.length := by
  rw [← reordered.items.length_eq, reordered.isOrder.pick_perm.length_eq]

theorem symm (reordered : Reordered same order first second)
    (symmetric : ∀ item other, same item other → same other item) :
    Reordered same (back order) second first := by
  constructor
  · rw [reordered.length_eq]
    exact reordered.isOrder.back
  · have pairs := pick_forall₂ reordered.items (back order)
    rw [pick_back reordered.isOrder] at pairs
    exact (pairs.imp symmetric).flip

theorem eq_pick (reordered : Reordered Eq order first second) : second = pick order first :=
  (List.forall₂_eq_eq_eq ▸ reordered.items : pick order first = second).symm

/-- What is made of the items follows their order. -/
theorem map_eq {γ : Type} (reordered : Reordered same order first second) {make other : α → γ}
    (unchanged : ∀ item entry, same item entry → make item = other entry) :
    second.map other = pick order (first.map make) := by
  have equal : List.Forall₂ Eq ((pick order first).map make) (second.map other) := by
    rw [List.forall₂_map_left_iff, List.forall₂_map_right_iff]
    exact reordered.items.imp unchanged
  rw [List.forall₂_eq_eq_eq] at equal
  rw [pick_map, equal]

end Reordered

end Orders

end DecoderTables
