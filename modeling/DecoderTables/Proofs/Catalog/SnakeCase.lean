import DecoderTables.Proofs.Catalog.Faults
import DecoderTables.Proofs.Header.Callback

/-!
Identifiers of names in snake case. Joining the segments of a name loses the places where they meet,
but each segment has its only capital at its start, so these places can be found again. Entries of
such names collide only if their names differ in underscores that bound no segment.
-/

namespace DecoderTables
open Json Identifier

/-! Pieces that start with a mark. -/

/-- The first character is a mark, and no other character is. -/
def Marked (mark : Char → Bool) (piece : List Char) : Prop :=
  ∃ first rest, piece = first :: rest ∧ mark first = true ∧ ∀ c ∈ rest, mark c = false

/-- A piece goes on up to the mark of the next one. -/
theorem takeWhile_append_flatten {mark : Char → Bool} {rest : List Char}
    (plain : ∀ c ∈ rest, mark c = false) {pieces : List (List Char)}
    (marked : ∀ piece ∈ pieces, Marked mark piece) :
    (rest ++ pieces.flatten).takeWhile (!mark ·) = rest := by
  have free : ∀ c ∈ rest, (!mark c) = true := fun c member => by rw [plain c member]; rfl
  rw [List.takeWhile_append_of_pos free]
  cases pieces with
  | nil => exact List.append_nil rest
  | cons piece pieces =>
    obtain ⟨first, others, rfl, stop, _⟩ := marked piece List.mem_cons_self
    rw [List.flatten_cons, List.cons_append, List.takeWhile_cons_of_neg (by simp [stop]),
      List.append_nil]

/-- Marked pieces can be told from the text that they make together. -/
theorem eq_of_flatten_eq {mark : Char → Bool} {left right : List (List Char)}
    (first : ∀ piece ∈ left, Marked mark piece) (second : ∀ piece ∈ right, Marked mark piece)
    (same : left.flatten = right.flatten) : left = right := by
  induction left generalizing right with
  | nil =>
    cases right with
    | nil => rfl
    | cons piece right =>
      obtain ⟨c, rest, rfl, _⟩ := second piece List.mem_cons_self
      cases same
  | cons piece left ih =>
    obtain ⟨⟨c, rest, rfl, _, plain⟩, later⟩ := List.forall_mem_cons.mp first
    cases right with
    | nil => cases same
    | cons other right =>
      obtain ⟨⟨d, more, rfl, _, free⟩, others⟩ := List.forall_mem_cons.mp second
      rw [List.flatten_cons, List.flatten_cons, List.cons_append, List.cons_append] at same
      obtain ⟨rfl, tails⟩ := List.cons.inj same
      have ends : rest = more := by
        rw [← takeWhile_append_flatten plain later, tails, takeWhile_append_flatten free others]
      subst ends
      rw [ih later others (List.append_cancel_left tails)]

/-! Segments. -/

namespace Identifier

/-- A small ASCII letter, and then small ASCII letters and digits. -/
def isSnakeSegment : List Char → Bool
  | [] => false
  | first :: rest => first.isLower && rest.all fun c => c.isLower || c.isDigit

def IsSnakeCase (name : String) : Prop :=
  ∀ segment ∈ segments name.toList, isSnakeSegment segment = true

instance (name : String) : Decidable (IsSnakeCase name) :=
  inferInstanceAs (Decidable (∀ segment ∈ segments name.toList, isSnakeSegment segment = true))

/-- A segment with a small first letter again. -/
def uncapitalize : List Char → List Char
  | [] => []
  | first :: rest => first.toLower :: rest

theorem toNat_le_of_isLower {c : Char} (small : c.isLower = true) :
    0x61 ≤ c.toNat ∧ c.toNat ≤ 0x7A := by
  have ranges : c.isLower = ('a'.val ≤ c.val && c.val ≤ 'z'.val) := rfl
  rw [ranges, Bool.and_eq_true, decide_eq_true_eq, decide_eq_true_eq] at small
  exact small

theorem toNat_le_of_isDigit {c : Char} (digit : c.isDigit = true) :
    0x30 ≤ c.toNat ∧ c.toNat ≤ 0x39 := by
  have ranges : c.isDigit = ('0'.val ≤ c.val && c.val ≤ '9'.val) := rfl
  rw [ranges, Bool.and_eq_true, decide_eq_true_eq, decide_eq_true_eq] at digit
  exact digit

theorem toNat_le_of_isUpper {c : Char} (large : c.isUpper = true) :
    0x41 ≤ c.toNat ∧ c.toNat ≤ 0x5A := by
  have ranges : c.isUpper = decide ('A'.val ≤ c.val ∧ c.val ≤ 'Z'.val) := rfl
  rw [ranges, decide_eq_true_eq] at large
  exact large

/-- The capital of a small letter. -/
theorem exists_upper {c : Char} (small : c.isLower = true) :
    ∃ capital, Text.upper c = [capital] ∧ capital.isUpper = true ∧ capital.toLower = c := by
  have range := toNat_le_of_isLower small
  have table : ∀ code < 128, 0x61 ≤ code ∧ code ≤ 0x7A →
      (Char.ofNat (code - 0x20)).isUpper = true ∧
        (Char.ofNat (code - 0x20)).toLower = Char.ofNat code := by decide
  obtain ⟨capital, back⟩ := table c.toNat (by omega) range
  refine ⟨Char.ofNat (c.toNat - 0x20), ?_, capital, ?_⟩
  · rw [Text.upper, Text.upperCodes_of_ascii c.toNat (by omega), if_pos range]
    rfl
  · rw [back, Char.ofNat_toNat]

theorem isUpper_eq_false {c : Char} (plain : (c.isLower || c.isDigit) = true) :
    c.isUpper = false := by
  rw [← Bool.not_eq_true]
  intro large
  have range := toNat_le_of_isUpper large
  rcases Bool.or_eq_true_iff.mp plain with small | digit
  · have other := toNat_le_of_isLower small
    omega
  · have other := toNat_le_of_isDigit digit
    omega

theorem marked_capitalize {segment : List Char} (snake : isSnakeSegment segment = true) :
    Marked Char.isUpper (capitalize segment) := by
  cases segment with
  | nil => cases snake
  | cons first rest =>
    obtain ⟨small, plain⟩ := Bool.and_eq_true_iff.mp snake
    obtain ⟨capital, image, upper, _⟩ := exists_upper small
    refine ⟨capital, rest, ?_, upper, ?_⟩
    · rw [capitalize, image, List.singleton_append]
    · exact fun c member => isUpper_eq_false (List.all_eq_true.mp plain c member)

theorem uncapitalize_capitalize {segment : List Char} (snake : isSnakeSegment segment = true) :
    uncapitalize (capitalize segment) = segment := by
  cases segment with
  | nil => cases snake
  | cons first rest =>
    obtain ⟨small, _⟩ := Bool.and_eq_true_iff.mp snake
    obtain ⟨capital, image, _, back⟩ := exists_upper small
    rw [capitalize, image, List.singleton_append, uncapitalize, back]

theorem pascalCase_eq_iff {first second : String} (snake : IsSnakeCase first)
    (other : IsSnakeCase second) :
    pascalCase first = pascalCase second ↔ segments first.toList = segments second.toList := by
  have marked : ∀ {name : String}, IsSnakeCase name →
      ∀ piece ∈ (segments name.toList).map capitalize, Marked Char.isUpper piece := fun snake =>
    List.forall_mem_map.mpr fun segment member => marked_capitalize (snake segment member)
  have back : ∀ {name : String}, IsSnakeCase name →
      ((segments name.toList).map capitalize).map uncapitalize = segments name.toList := by
    intro name snake
    rw [List.map_map]
    exact (List.map_congr_left fun segment member =>
      uncapitalize_capitalize (snake segment member)).trans (List.map_id _)
  apply Iff.intro
  · intro same
    rw [pascalCase, pascalCase, String.ofList_inj, List.flatMap_def, List.flatMap_def] at same
    rw [← back snake, ← back other, eq_of_flatten_eq (marked snake) (marked other) same]
  · intro same
    rw [pascalCase, pascalCase, same]

end Identifier

/-! Collisions. -/

/-- Of entries with distinct identifiers none has a name that collides with another one's. -/
theorem not_mem_names {α : Type} {entries : Section α}
    (distinct : (entries.map (pascalCase ·.1)).Nodup) {earlier name : String}
    (known : earlier ∈ entries.map (·.1)) (other : earlier ≠ name)
    (same : pascalCase earlier = pascalCase name) : name ∉ entries.map (·.1) := by
  intro member
  rw [map_pascalCase] at distinct
  exact other (List.inj_on_of_nodup_map distinct known member same)

theorem pascalCase_mem_map {α : Type} {entries : Section α} {earlier name : String}
    (known : earlier ∈ entries.map (·.1)) (same : pascalCase earlier = pascalCase name) :
    pascalCase name ∈ entries.map (pascalCase ·.1) := by
  rw [map_pascalCase, ← same]
  exact List.mem_map_of_mem known

namespace Instruction

/-- The intake stops at an instruction, since it derives an identifier of an earlier one. -/
structure Collision (before : Section Members) (earlier : String) (entry : String × Members) :
    Prop where
  known : earlier ∈ before.map (·.1)
  refused : ∃ identifier ∈ [Identifier.structName earlier, Identifier.enumTag earlier],
    StopsAt (fun entries => (intake entries).result) before entry
      (.repeatedIdentifier entry.1 identifier)

theorem accept_eq_error_of_pascalCase {before : Section Members} {name : String} (fields : Members)
    (fresh : name ∉ before.map (·.1)) (taken : pascalCase name ∈ before.map (pascalCase ·.1)) :
    accept (before.map fun entry => ofEntry entry.1 entry.2) (name, fields) =
      .error (.repeatedIdentifier name (Identifier.structName name)) := by
  have names := isSome_find?_name Instruction.name
    (before.map fun entry => ofEntry entry.1 entry.2) name
  rw [names_map_ofEntry] at names
  have struct := (structName_mem_taken_iff before name).mpr taken
  simp only [accept, find?, names, fresh, if_false, identifiers_ofEntry, List.find?_cons, struct,
    decide_true]

theorem collision_iff (before : Section Members) (earlier name : String) (fields : Members) :
    Collision before earlier (name, fields) ↔
      earlier ∈ before.map (·.1) ∧ (∃ items, (intake before).result = .ok items) ∧
        earlier ≠ name ∧ pascalCase earlier = pascalCase name := by
  apply Iff.intro
  · rintro ⟨known, identifier, derived, stop⟩
    refine ⟨known, stop.passes, ?_⟩
    have chosen : identifier = Identifier.structName earlier ∨
        identifier = Identifier.enumTag earlier := by simpa using derived
    cases fault_of_stopsAt stop with
    | structName fresh taken =>
      refine ⟨fun same => fresh (same ▸ known), ?_⟩
      rcases chosen with same | same
      · exact ((structName_inj name earlier).mp same).symm
      · exact absurd same (structName_ne_enumTag name earlier)
    | enumTag fresh free reserved =>
      refine ⟨fun same => fresh (same ▸ known), ?_⟩
      rcases chosen with same | same
      · exact absurd same.symm (structName_ne_enumTag earlier name)
      · exact ((enumTag_inj name earlier).mp same).symm
  · rintro ⟨known, ⟨items, passed⟩, other, same⟩
    obtain ⟨rfl, distinct⟩ := (intake_eq_ok_iff before items).mp passed
    have fresh := not_mem_names ((distinct_map_ofEntry_iff before).mp distinct).distinct known other
      same
    refine ⟨known, Identifier.structName earlier, List.mem_cons_self, ?_⟩
    rw [(structName_inj earlier name).mpr same]
    exact .of_refused passed (accept_eq_error_of_pascalCase fields fresh
      (pascalCase_mem_map known same))

end Instruction

namespace Decoder

/-- The intake stops at a decoder, since it derives the callback of an earlier one. -/
structure Collision (instructions : List Instruction) (before : Section DecoderEntry)
    (earlier : String) (entry : String × DecoderEntry) : Prop where
  known : earlier ∈ before.map (·.1)
  refused : StopsAt (fun entries => (intake instructions entries).result) before entry
    (.repeatedIdentifier entry.1 (Identifier.decoderCallback earlier))

theorem accept_eq_error_of_pascalCase {instructions : List Instruction}
    {before : Section DecoderEntry} {items : List Decoder} {name : String} {entry : DecoderEntry}
    {decoder : Decoder}
    (made : before.map (fun entry => ofEntry instructions entry.1 entry.2) = items.map .ok)
    (fresh : name ∉ before.map (·.1)) (taken : pascalCase name ∈ before.map (pascalCase ·.1))
    (ready : ofEntry instructions name entry = .ok decoder) :
    accept instructions items (name, entry) =
      .error (.repeatedIdentifier name (Identifier.decoderCallback name)) := by
  have own := isSome_find?_name Decoder.name items name
  rw [names_eq made] at own
  have clash := (decoderCallback_mem_taken_iff made name).mpr (.inr taken)
  rw [← (names_of_ofEntry ready).2] at clash ⊢
  simp only [accept, find?, own, fresh, if_false, ready]
  exact if_pos clash

theorem collision_iff (instructions : List Instruction) (before : Section DecoderEntry)
    (earlier name : String) (entry : DecoderEntry) :
    Collision instructions before earlier (name, entry) ↔
      earlier ∈ before.map (·.1) ∧ (∃ items, (intake instructions before).result = .ok items) ∧
        (∃ decoder, ofEntry instructions name entry = .ok decoder) ∧
        earlier ≠ name ∧ pascalCase earlier = pascalCase name := by
  apply Iff.intro
  · rintro ⟨known, stop⟩
    refine ⟨known, stop.passes, ?_⟩
    generalize callback : Identifier.decoderCallback earlier = identifier at stop
    have names : instructions.map (·.name) =
        (instructions.map fun instruction => (instruction.name, instruction.fields)).map (·.1) := by
      rw [List.map_map]
      rfl
    cases fault_of_stopsAt names stop with
    | callback fresh member valid taken =>
      rw [← names] at member
      exact ⟨(exists_ofEntry_iff instructions name entry).mpr ⟨member, valid⟩,
        fun same => fresh (same ▸ known), (decoderCallback_inj earlier name).mp callback⟩
  · rintro ⟨known, ⟨items, passed⟩, ⟨decoder, ready⟩, other, same⟩
    obtain ⟨made, distinct⟩ := (intake_eq_ok_iff instructions before items).mp passed
    have fresh := not_mem_names ((distinct_iff made).mp distinct).1 known other same
    refine ⟨known, ?_⟩
    rw [(decoderCallback_inj earlier name).mpr same]
    exact .of_refused passed (accept_eq_error_of_pascalCase made fresh
      (pascalCase_mem_map known same) ready)

end Decoder

/-- Names in snake case derive the same identifiers exactly if they have the same segments. So an
instruction or a decoder is refused for an identifier of an earlier one only if their names differ
in nothing but further underscores. -/
theorem collision_iff_segments {first second : String} (snake : IsSnakeCase first)
    (other : IsSnakeCase second) :
    (pascalCase first = pascalCase second ↔ segments first.toList = segments second.toList) ∧
      (∀ before fields, Instruction.Collision before first (second, fields) ↔
        first ∈ before.map (·.1) ∧
          (∃ items, (Instruction.intake before).result = .ok items) ∧
          first ≠ second ∧ segments first.toList = segments second.toList) ∧
      ∀ instructions before entry, Decoder.Collision instructions before first (second, entry) ↔
        first ∈ before.map (·.1) ∧
          (∃ items, (Decoder.intake instructions before).result = .ok items) ∧
          (∃ decoder, Decoder.ofEntry instructions second entry = .ok decoder) ∧
          first ≠ second ∧ segments first.toList = segments second.toList := by
  have same := pascalCase_eq_iff snake other
  refine ⟨same, fun before fields => ?_, fun instructions before entry => ?_⟩
  · rw [Instruction.collision_iff, same]
  · rw [Decoder.collision_iff, same]

theorem collision_move_register :
    IsSnakeCase "mov_reg" ∧ IsSnakeCase "mov__reg" ∧ pascalCase "mov_reg" = pascalCase "mov__reg" ∧
      Instruction.Collision [("mov_reg", [])] "mov_reg" ("mov__reg", []) ∧
      Decoder.Collision [Instruction.ofEntry "mov_reg" []]
        [("mov_reg", ⟨"mov_reg", [], none, []⟩)] "mov_reg"
        ("mov__reg", ⟨"mov_reg", [], none, []⟩) := by
  have snake : IsSnakeCase "mov_reg" := by decide
  have other : IsSnakeCase "mov__reg" := by decide
  have differ : "mov_reg" ≠ "mov__reg" := by decide
  have same : segments "mov_reg".toList = segments "mov__reg".toList := by decide
  obtain ⟨names, instructions, decoders⟩ := collision_iff_segments snake other
  exact ⟨snake, other, names.mpr same,
    (instructions _ _).mpr ⟨List.mem_cons_self, ⟨_, rfl⟩, differ, same⟩,
    (decoders _ _ _).mpr ⟨List.mem_cons_self, ⟨_, rfl⟩, ⟨_, rfl⟩, differ, same⟩⟩

end DecoderTables
