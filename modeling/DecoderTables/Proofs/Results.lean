/-!
Results and errors: what came before the end of a computation, and what a list of successes makes.
-/

namespace DecoderTables

theorem bind_eq_ok_iff {α β ε : Type} (first : Except ε α) (next : α → Except ε β) (result : β) :
    first >>= next = .ok result ↔ ∃ value, first = .ok value ∧ next value = .ok result := by
  cases first <;> simp [bind, Except.bind]

theorem bind_eq_error_iff {α β ε : Type} (first : Except ε α) (next : α → Except ε β) (fault : ε) :
    first >>= next = .error fault ↔
      first = .error fault ∨ ∃ value, first = .ok value ∧ next value = .error fault := by
  cases first <;> simp [bind, Except.bind]

theorem map_eq_error_iff {α β ε : Type} (change : α → β) (result : Except ε α) (fault : ε) :
    result.map change = .error fault ↔ result = .error fault := by
  cases result <;> simp [Except.map]

theorem exists_ok_of_isOk {α ε : Type} {result : Except ε α} (done : result.isOk = true) :
    ∃ value, result = .ok value := by
  cases result with
  | ok value => exact ⟨value, rfl⟩
  | error fault => cases done

theorem exists_ok_of_any {α ε : Type} {result : Except ε α} {holds : α → Bool}
    (checked : result.toOption.any holds = true) :
    ∃ value, result = .ok value ∧ holds value = true := by
  cases result with
  | ok value => exact ⟨value, rfl, checked⟩
  | error fault => cases checked

theorem exists_error_of_isOk {α ε : Type} {result : Except ε α} (failed : result.isOk = false) :
    ∃ fault, result = .error fault := by
  cases result with
  | ok value => cases failed
  | error fault => exact ⟨fault, rfl⟩

theorem mapError_eq_ok_iff {α ε δ : Type} (change : ε → δ) (result : Except ε α) (value : α) :
    result.mapError change = .ok value ↔ result = .ok value := by
  cases result with
  | ok item =>
    apply Iff.intro
    · intro same
      cases same
      rfl
    · intro same
      cases same
      rfl
  | error fault =>
    apply Iff.intro
    · intro same
      cases same
    · intro same
      cases same

theorem mapError_eq_error_iff {α ε δ : Type} (change : ε → δ) (result : Except ε α) (fault : δ) :
    result.mapError change = .error fault ↔
      ∃ cause, result = .error cause ∧ change cause = fault := by
  cases result with
  | ok item =>
    apply Iff.intro
    · intro same
      cases same
    · intro given
      obtain ⟨_, same, _⟩ := given
      cases same
  | error cause =>
    apply Iff.intro
    · intro same
      exact ⟨cause, rfl, Except.error.inj same⟩
    · intro given
      obtain ⟨_, same, rfl⟩ := given
      cases same
      rfl

/-- Two computations that agree up to changed values and faults still agree after a next step. -/
theorem map_mapError_bind {α β γ δ ε φ : Type} {first : Except ε α} {next : α → Except ε β}
    {change : α → γ} {later : β → δ} {wrap : ε → φ} {nextIn : γ → Except φ δ}
    (agree : ∀ value, first = .ok value →
      nextIn (change value) = ((next value).map later).mapError wrap) :
    (first.map change).mapError wrap >>= nextIn = ((first >>= next).map later).mapError wrap := by
  cases first with
  | ok value => exact agree value rfl
  | error fault => rfl

theorem map_ok_append_iff {α β ε : Type} (make : β → Except ε α) (entries : List β) (entry : β)
    (all : List α) :
    (entries ++ [entry]).map make = all.map .ok ↔
      ∃ items item, all = items ++ [item] ∧ entries.map make = items.map .ok ∧
        make entry = .ok item := by
  rw [List.map_append, List.map_singleton]
  apply Iff.intro
  · intro same
    obtain ⟨items, last, rfl, first, second⟩ := List.append_eq_map_iff.mp same
    obtain ⟨item, rfl, made⟩ := List.map_eq_singleton_iff.mp second
    exact ⟨items, item, rfl, first.symm, made.symm⟩
  · intro given
    obtain ⟨items, item, rfl, first, second⟩ := given
    rw [first, second, List.map_append, List.map_singleton]

theorem map_ok_iff {α β ε : Type} (make : β → α) (entries : List β) (items : List α) :
    entries.map (fun entry => (.ok (make entry) : Except ε α)) = items.map .ok ↔
      items = entries.map make := by
  have both : entries.map (fun entry => (.ok (make entry) : Except ε α)) =
      (entries.map make).map .ok := by simp
  rw [both, List.map_inj_right fun _ _ => Except.ok.inj, eq_comm]

theorem exists_map_ok_iff {α β ε : Type} (make : β → Except ε α) (entries : List β) :
    (∃ items : List α, entries.map make = items.map .ok) ↔
      ∀ entry ∈ entries, ∃ item, make entry = .ok item := by
  induction entries with
  | nil => simp
  | cons entry entries ih =>
    rw [List.forall_mem_cons, ← ih]
    apply Iff.intro
    · intro given
      obtain ⟨items, made⟩ := given
      cases items with
      | nil => cases made
      | cons item items =>
        obtain ⟨first, rest⟩ := List.cons.inj made
        exact ⟨⟨item, first⟩, items, rest⟩
    · intro given
      obtain ⟨⟨item, first⟩, items, rest⟩ := given
      exact ⟨item :: items, by rw [List.map_cons, List.map_cons, first, rest]⟩

theorem exists_of_map_ok {α β ε : Type} {make : β → Except ε α} {entries : List β}
    {items : List α} (made : entries.map make = items.map .ok) {item : α} (member : item ∈ items) :
    ∃ entry ∈ entries, make entry = .ok item := by
  have here : (.ok item : Except ε α) ∈ items.map .ok := List.mem_map_of_mem member
  rw [← made] at here
  exact List.mem_map.mp here

theorem map_eq_of_map_ok {α β γ ε : Type} {make : β → Except ε α} {entries : List β}
    {items : List α} (made : entries.map make = items.map .ok) (ofItem : α → γ) (ofEntry : β → γ)
    (same : ∀ entry item, make entry = .ok item → ofItem item = ofEntry entry) :
    items.map ofItem = entries.map ofEntry := by
  induction entries generalizing items with
  | nil => rw [List.map_eq_nil_iff.mp made.symm, List.map_nil, List.map_nil]
  | cons entry entries ih =>
    cases items with
    | nil => cases made
    | cons item items =>
      obtain ⟨first, rest⟩ := List.cons.inj made
      rw [List.map_cons, List.map_cons, same entry item first, ih rest]

end DecoderTables
