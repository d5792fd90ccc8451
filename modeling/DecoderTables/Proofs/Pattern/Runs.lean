import DecoderTables.Proofs.Pattern.Separation
import DecoderTables.Proofs.Text.Bytes

/-!
The runs of a text are its longest pieces without wildcards. A run is first described by the
characters before and after it, which shows that the scan cuts it out between characters, and then
by bytes: two such pieces that overlap are the same, and every byte that is not a wildcard lies in
one of them. No text is excluded, neither by its length nor by its characters.
-/

namespace DecoderTables
open Text

theorem isFixed_eq_false_iff (c : Char) : isFixed c = false ↔ c = wildcard := by
  simp [isFixed]

/-! Runs between characters. -/

/-- The text before the run and the text after it. Neither leaves room for a longer piece. -/
structure Run.Between (start : Nat) (text : List Char) (run : Run) (before after : List Char) :
    Prop where
  split : text = before ++ run.literal.toList ++ after
  place : run.start = start + utf8Length before
  nonempty : run.literal.toList ≠ []
  fixed : ∀ c ∈ run.literal.toList, isFixed c = true
  closedBefore : before = [] ∨ before.getLast? = some wildcard
  closedAfter : after = [] ∨ after.head? = some wildcard

theorem Run.Between.behind {start : Nat} {front text before after : List Char} {run : Run}
    (between : run.Between (start + utf8Length front) text before after)
    (closed : before = [] → front.getLast? = some wildcard) :
    run.Between start (front ++ text) (front ++ before) after where
  split := by rw [between.split, List.append_assoc, List.append_assoc, List.append_assoc]
  place := by rw [between.place, utf8Length_append, Nat.add_assoc]
  nonempty := between.nonempty
  fixed := between.fixed
  closedBefore := by
    right
    rcases between.closedBefore with none_before | last
    · rw [none_before, List.append_nil]
      exact closed none_before
    · rw [List.getLast?_append, last]
      rfl
  closedAfter := between.closedAfter

theorem head?_dropWhile_isFixed (text : List Char) :
    text.dropWhile isFixed = [] ∨ (text.dropWhile isFixed).head? = some wildcard := by
  cases rest : text.dropWhile isFixed with
  | nil => exact .inl rfl
  | cons stop more =>
    have wild := List.head?_dropWhile_not isFixed text
    rw [rest] at wild
    obtain rfl := (isFixed_eq_false_iff stop).mp (by simpa using wild)
    exact .inr rfl

theorem runsFrom_between (start : Nat) (text : List Char) :
    ∀ run ∈ runsFrom start text, ∃ before after, run.Between start text before after := by
  fun_induction runsFrom start text with
  | case1 start => simp
  | case2 start c text isFixed_c piece ih =>
    have split : c :: text = piece ++ text.dropWhile isFixed := by
      rw [List.cons_append, List.takeWhile_append_dropWhile]
    refine List.forall_mem_cons.mpr ⟨⟨[], text.dropWhile isFixed, ?_⟩, ?_⟩
    · refine ⟨?_, rfl, ?_, ?_, .inl rfl, head?_dropWhile_isFixed text⟩
      · rw [String.toList_ofList]
        exact split
      · rw [String.toList_ofList]
        exact List.cons_ne_nil _ _
      · rw [String.toList_ofList]
        exact List.forall_mem_cons.mpr ⟨isFixed_c, List.all_eq_true.mp List.all_takeWhile⟩
    · intro run member
      obtain ⟨before, after, between⟩ := ih run member
      rw [split]
      refine ⟨piece ++ before, after, between.behind ?_⟩
      -- a later run cannot start where the first one was stopped by a wildcard
      intro none_before
      exfalso
      obtain ⟨first, more, literal⟩ := List.exists_cons_of_ne_nil between.nonempty
      have start_fixed := between.fixed first (literal ▸ List.mem_cons_self)
      have rest := between.split
      rw [none_before, literal] at rest
      rcases head?_dropWhile_isFixed text with empty | wild
      · rw [empty] at rest
        cases rest
      · rw [rest] at wild
        cases wild
        cases start_fixed
  | case3 start c text notFixed ih =>
    intro run member
    obtain ⟨before, after, between⟩ := ih run member
    obtain rfl := (isFixed_eq_false_iff c).mp (Bool.not_eq_true _ ▸ notFixed)
    have behind : run.Between start ([wildcard] ++ text) ([wildcard] ++ before) after :=
      between.behind fun _ => rfl
    exact ⟨_, after, behind⟩

/-! Every character that is not a wildcard lies in a run. -/

theorem located_append (start : Nat) (left right : List Char) :
    located start (left ++ right) =
      located start left ++ located (start + utf8Length left) right := by
  induction left generalizing start with
  | nil => rfl
  | cons c left ih =>
    rw [List.cons_append, located, located, ih, utf8Length_cons, Nat.add_assoc]
    rfl

theorem split_of_mem_located {start : Nat} {text : List Char} {item : Nat × Char}
    (member : item ∈ located start text) :
    ∃ before after, text = before ++ item.2 :: after ∧ item.1 = start + utf8Length before := by
  induction text generalizing start with
  | nil => cases member
  | cons c text ih =>
    rcases List.mem_cons.mp member with rfl | later
    · exact ⟨[], text, rfl, rfl⟩
    · obtain ⟨before, after, rfl, place⟩ := ih later
      exact ⟨c :: before, after, rfl, by rw [place, utf8Length_cons, Nat.add_assoc]⟩

theorem exists_mem_located {start place : Nat} {text : List Char} (above : start ≤ place)
    (below : place < start + utf8Length text) :
    ∃ item ∈ located start text, item.1 ≤ place ∧ place < item.1 + item.2.utf8Size := by
  induction text generalizing start with
  | nil =>
    rw [utf8Length_nil] at below
    omega
  | cons c text ih =>
    rw [utf8Length_cons, ← Nat.add_assoc] at below
    by_cases here : place < start + c.utf8Size
    · exact ⟨(start, c), List.mem_cons_self, above, here⟩
    · obtain ⟨item, later, holds⟩ := ih (Nat.le_of_not_lt here) below
      exact ⟨item, List.mem_cons_of_mem _ later, holds⟩

/-- The character at the place lies in the run as a whole. -/
def Run.Holds (run : Run) (item : Nat × Char) : Prop :=
  run.start ≤ item.1 ∧ item.1 + item.2.utf8Size ≤ run.start + run.width

theorem runsFrom_covers (start : Nat) (text : List Char) :
    ∀ item ∈ located start text,
      item.2 = wildcard ∨ ∃ run ∈ runsFrom start text, run.Holds item := by
  fun_induction runsFrom start text with
  | case1 start => simp [located]
  | case2 start c text isFixed_c piece ih =>
    have split : c :: text = piece ++ text.dropWhile isFixed := by
      rw [List.cons_append, List.takeWhile_append_dropWhile]
    rw [split, located_append, List.forall_mem_append]
    constructor
    · intro item member
      refine .inr ⟨_, List.mem_cons_self, ?_⟩
      obtain ⟨before, after, inside, place⟩ := split_of_mem_located member
      rw [Run.Holds, Run.width, utf8ByteSize_ofList, inside, utf8Length_append, utf8Length_cons,
        place]
      dsimp only
      omega
    · intro item member
      refine (ih item member).imp_right ?_
      intro found
      obtain ⟨run, listed, holds⟩ := found
      exact ⟨run, List.mem_cons_of_mem _ listed, holds⟩
  | case3 start c text notFixed ih =>
    obtain rfl := (isFixed_eq_false_iff c).mp (Bool.not_eq_true _ ▸ notFixed)
    exact List.forall_mem_cons.mpr ⟨.inl rfl, ih⟩

/-! The scan. -/

theorem runsFrom_wildcard (start : Nat) (rest : List Char) :
    runsFrom start (wildcard :: rest) = runsFrom (start + 1) rest := by
  rw [runsFrom, if_neg]
  decide

theorem runsFrom_piece (start : Nat) {piece rest : List Char} (nonempty : piece ≠ [])
    (fixed : ∀ c ∈ piece, isFixed c = true) (closed : rest = [] ∨ rest.head? = some wildcard) :
    runsFrom start (piece ++ rest) =
      ⟨start, String.ofList piece⟩ :: runsFrom (start + utf8Length piece) rest := by
  obtain ⟨c, more, rfl⟩ := List.exists_cons_of_ne_nil nonempty
  obtain ⟨first, others⟩ := List.forall_mem_cons.mp fixed
  have stops : rest.takeWhile isFixed = [] ∧ rest.dropWhile isFixed = rest := by
    rcases closed with rfl | wild
    · exact ⟨rfl, rfl⟩
    · obtain ⟨behind, rfl⟩ := List.head?_eq_some_iff.mp wild
      exact ⟨rfl, rfl⟩
  rw [List.cons_append, runsFrom, if_pos first, List.takeWhile_append_of_pos others,
    List.dropWhile_append_of_pos others, stops.1, stops.2, List.append_nil]

namespace Scan

variable {text : String}

/-- What becomes of a scan that goes on with the rest of the text. -/
def continue? (text : String) (scan : Scan) (start : Nat) (rest : List Char) :
    Option (List Run) := do
  let last ← (located start rest).foldlM (step? text) scan
  last.finish? text

theorem continue?_cons (scan : Scan) (start : Nat) (c : Char) (rest : List Char) :
    continue? text scan start (c :: rest) =
      (scan.step? text (start, c)).bind fun next =>
        continue? text next (start + c.utf8Size) rest := by
  rw [continue?, located, List.foldlM_cons]
  cases scan.step? text (start, c) <;> rfl

theorem close?_eq_some {before piece after : List Char} (ended : List Run)
    (split : text.toList = before ++ piece ++ after) (nonempty : piece ≠ []) :
    close? text ended (utf8Length before) (utf8Length (before ++ piece)) =
      some ⟨none, ended ++ [⟨utf8Length before, String.ofList piece⟩]⟩ := by
  have positive := List.length_pos_iff.mpr nonempty
  have length := length_le_utf8Length piece
  obtain ⟨last, stop⟩ : ∃ last, last + 1 = utf8Length (before ++ piece) :=
    Nat.exists_add_one_eq.mpr (by rw [utf8Length_append]; omega)
  rw [← stop]
  rw [utf8Length_append] at stop
  rw [close?, slice?_eq_some split stop]
  rfl

/-- A run is open when something was read since the last wildcard. -/
def openedAt (start : Nat) : List Char → Option Nat
  | [] => none
  | _ :: _ => some start

theorem step?_fixed {c : Char} (fixed : isFixed c = true) (ended : List Run)
    (before piece : List Char) :
    step? text ⟨openedAt (utf8Length before) piece, ended⟩ (utf8Length (before ++ piece), c) =
      some ⟨openedAt (utf8Length before) (piece ++ [c]), ended⟩ := by
  rw [step?, if_pos fixed]
  cases piece with
  | nil =>
    rw [List.append_nil]
    rfl
  | cons first piece => rfl

theorem step?_wildcard {before piece rest : List Char} (ended : List Run)
    (split : text.toList = before ++ piece ++ wildcard :: rest)
    (fixed : ∀ c ∈ piece, isFixed c = true) :
    ∃ closed, step? text ⟨openedAt (utf8Length before) piece, ended⟩
        (utf8Length (before ++ piece), wildcard) = some ⟨none, ended ++ closed⟩ ∧
      runsFrom (utf8Length before) (piece ++ wildcard :: rest) =
        closed ++ runsFrom (utf8Length (before ++ piece ++ [wildcard])) rest := by
  have place : utf8Length (before ++ piece ++ [wildcard]) =
      utf8Length before + utf8Length piece + 1 := by
    rw [utf8Length_append, utf8Length_append]
    rfl
  rw [place]
  cases piece with
  | nil =>
    refine ⟨[], ?_, runsFrom_wildcard _ _⟩
    rw [List.append_nil ended]
    rfl
  | cons first piece =>
    have nonempty := List.cons_ne_nil first piece
    refine ⟨[⟨utf8Length before, String.ofList (first :: piece)⟩],
      close?_eq_some ended split nonempty, ?_⟩
    rw [runsFrom_piece _ nonempty fixed (.inr rfl), runsFrom_wildcard]
    rfl

/-- The scan keeps the place of the piece that it is in, and goes on as if it had not read that
piece yet. -/
theorem continue?_eq (rest : List Char) (ended : List Run) (before piece : List Char)
    (split : text.toList = before ++ piece ++ rest) (fixed : ∀ c ∈ piece, isFixed c = true) :
    continue? text ⟨openedAt (utf8Length before) piece, ended⟩ (utf8Length (before ++ piece)) rest =
      some (ended ++ runsFrom (utf8Length before) (piece ++ rest)) := by
  induction rest generalizing ended before piece with
  | nil =>
    have size : text.utf8ByteSize = utf8Length (before ++ piece) := by
      rw [← String.ofList_toList (s := text), utf8ByteSize_ofList, split, List.append_nil]
    cases piece with
    | nil =>
      rw [List.append_nil [], runsFrom, List.append_nil ended]
      rfl
    | cons first piece =>
      have nonempty := List.cons_ne_nil first piece
      have closed := close?_eq_some ended split nonempty
      rw [← size] at closed
      rw [runsFrom_piece _ nonempty fixed (.inl rfl), runsFrom]
      change (·.ended) <$> close? text ended (utf8Length before) text.utf8ByteSize = _
      rw [closed]
      rfl
  | cons c rest ih =>
    rw [continue?_cons]
    cases kind : isFixed c with
    | true =>
      have longer := ih ended before (piece ++ [c]) (by rw [split]; simp)
        (List.forall_mem_append.mpr ⟨fixed, List.forall_mem_singleton.mpr kind⟩)
      rw [step?_fixed kind, Option.bind_some]
      simpa [Nat.add_assoc] using longer
    | false =>
      obtain rfl := (isFixed_eq_false_iff c).mp kind
      obtain ⟨closed, stepped, found⟩ := step?_wildcard ended split fixed
      have behind := ih (ended ++ closed) (before ++ piece ++ [wildcard]) [] (by rw [split]; simp)
        (by simp)
      rw [stepped, Option.bind_some, found, ← List.append_assoc]
      simpa [openedAt, Nat.add_assoc] using behind

end Scan

/-- No cut fails, and the scan finds the runs. -/
theorem scan?_eq_some (text : String) : scan? text = some (runs text) := by
  have split : text.toList = [] ++ [] ++ text.toList := rfl
  exact Scan.continue?_eq text.toList [] [] [] split (by simp)

/-! Runs between bytes. -/

/-- How the wildcard is encoded. -/
def wildcardByte : UInt8 := 0x78

theorem wildcardByte_not_mem_bytes {text : List Char} (fixed : wildcard ∉ text) :
    wildcardByte ∉ bytes text := by
  intro member
  obtain ⟨c, listed, encoded⟩ := List.mem_flatMap.mp member
  have same : c.toNat = wildcard.toNat := toNat_eq_of_mem_utf8EncodeChar (by decide) encoded
  exact fixed (Char.toNat_inj.mp same ▸ listed)

theorem byteAt?_wildcard {text : String} {before after : List Char}
    (split : text.toList = before ++ wildcard :: after) :
    byteAt? text (utf8Length before) = some wildcardByte := by
  have passed := Nat.le_of_eq (length_bytes before)
  rw [byteAt?_eq, split, bytes_append, List.getElem?_append_right passed, length_bytes, Nat.sub_self]
  rfl

namespace Run

/-- A piece without wildcards that cannot be made longer, by the places of its bytes. -/
structure Longest (text : String) (run : Run) : Prop where
  nonempty : run.literal ≠ ""
  inside : run.stop < text.utf8ByteSize
  cut : run.literal.toUTF8 = text.toUTF8.extract run.start (run.stop + 1)
  fixed : wildcard ∉ run.literal.toList
  before : run.start = 0 ∨ byteAt? text (run.start - 1) = some wildcardByte
  after : run.stop + 1 = text.utf8ByteSize ∨ byteAt? text (run.stop + 1) = some wildcardByte

theorem width_pos {run : Run} (nonempty : run.literal ≠ "") : 0 < run.width :=
  Nat.pos_of_ne_zero (mt String.utf8ByteSize_eq_zero_iff.mp nonempty)

theorem stop_add_one {run : Run} (nonempty : run.literal ≠ "") :
    run.stop + 1 = run.start + run.width := by
  have positive := width_pos nonempty
  unfold stop
  omega

theorem start_le_stop {run : Run} (nonempty : run.literal ≠ "") : run.start ≤ run.stop := by
  have positive := width_pos nonempty
  unfold stop
  omega

theorem width_eq_utf8Length (run : Run) : run.width = utf8Length run.literal.toList := by
  rw [width, ← utf8ByteSize_ofList, String.ofList_toList]

theorem Between.longest {text : String} {run : Run} {before after : List Char}
    (between : run.Between 0 text.toList before after) : run.Longest text := by
  have split := between.split
  have start : run.start = utf8Length before := by rw [between.place, Nat.zero_add]
  have nonempty : run.literal ≠ "" := mt (congrArg String.toList) between.nonempty
  have stop := stop_add_one nonempty
  rw [width_eq_utf8Length, start] at stop
  have size : text.utf8ByteSize = run.stop + 1 + utf8Length after := by
    rw [stop, ← String.ofList_toList (s := text), utf8ByteSize_ofList, split, utf8Length_append,
      utf8Length_append]
  refine ⟨nonempty, by omega, ?_, ?_, ?_, ?_⟩
  · rw [stop, start, toUTF8_extract split, String.ofList_toList]
  · exact fun wild => absurd (between.fixed _ wild) (by decide)
  · rcases between.closedBefore with rfl | last
    · exact .inl start
    · right
      obtain ⟨front, rfl⟩ := List.getLast?_eq_some_iff.mp last
      rw [start, utf8Length_append]
      rw [List.append_assoc, List.append_assoc] at split
      exact byteAt?_wildcard split
  · rcases between.closedAfter with rfl | first
    · exact .inl size.symm
    · right
      obtain ⟨behind, rfl⟩ := List.head?_eq_some_iff.mp first
      rw [stop, ← utf8Length_append]
      exact byteAt?_wildcard split

namespace Longest

variable {text : String} {run other : Run}

theorem byteAt?_ne (longest : run.Longest text) {place : Nat} (from_start : run.start ≤ place)
    (to_stop : place ≤ run.stop) : byteAt? text place ≠ some wildcardByte := by
  have same : byteAt? run.literal (place - run.start) = byteAt? text place := by
    have inside : run.stop < text.toUTF8.data.size := longest.inside
    rw [byteAt?, longest.cut, ByteArray.data_extract, byteAt?, Array.getElem?_extract,
      if_pos (by omega), Nat.add_sub_cancel' from_start]
  intro wild
  rw [← same, byteAt?_eq] at wild
  exact wildcardByte_not_mem_bytes longest.fixed (List.mem_of_getElem? wild)

theorem start_le (longest : run.Longest text) (piece : other.Longest text)
    (overlap : run.start ≤ other.stop) : run.start ≤ other.start := by
  apply Nat.le_of_not_lt
  intro earlier
  rcases longest.before with first | wild
  · omega
  · exact piece.byteAt?_ne (by omega) (by omega) wild

theorem le_stop (longest : run.Longest text) (piece : other.Longest text)
    (overlap : other.start ≤ run.stop) : other.stop ≤ run.stop := by
  have inside := piece.inside
  apply Nat.le_of_not_lt
  intro later
  rcases longest.after with last | wild
  · omega
  · exact piece.byteAt?_ne (by omega) (by omega) wild

theorem eq_of_overlap (first : run.Longest text) (second : other.Longest text)
    (early : run.start ≤ other.stop) (late : other.start ≤ run.stop) : run = other := by
  have start := Nat.le_antisymm (first.start_le second early) (second.start_le first late)
  have stop := Nat.le_antisymm (second.le_stop first early) (first.le_stop second late)
  have literal : run.literal = other.literal := by
    rw [← String.toByteArray_inj, ← String.toUTF8_eq_toByteArray, ← String.toUTF8_eq_toByteArray,
      first.cut, second.cut, start, stop]
  cases run
  cases other
  cases start
  cases literal
  rfl

end Longest

end Run

theorem longest_of_mem_runs {text : String} {run : Run} (member : run ∈ runs text) :
    run.Longest text := by
  obtain ⟨before, after, between⟩ := runsFrom_between 0 text.toList run member
  exact between.longest

theorem mem_runs_iff (text : String) (run : Run) : run ∈ runs text ↔ run.Longest text := by
  apply Iff.intro longest_of_mem_runs
  intro longest
  have ordered := Run.start_le_stop longest.nonempty
  have inside := longest.inside
  have size : text.utf8ByteSize = utf8Length text.toList := by
    rw [← utf8ByteSize_ofList, String.ofList_toList]
  -- the first byte of the piece lies in a run, which is then the piece itself
  have in_text : run.start < 0 + utf8Length text.toList := by omega
  obtain ⟨item, listed, above, below⟩ := exists_mem_located (Nat.zero_le run.start) in_text
  rcases runsFrom_covers 0 text.toList item listed with wild | ⟨found, member, early, late⟩
  · obtain ⟨before, after, split, place⟩ := split_of_mem_located listed
    rw [wild] at split below
    have one : wildcard.utf8Size = 1 := rfl
    have here : run.start = utf8Length before := by omega
    exact absurd (byteAt?_wildcard split) (here ▸ longest.byteAt?_ne (Nat.le_refl _) ordered)
  · have known := longest_of_mem_runs member
    have stop := Run.stop_add_one known.nonempty
    obtain rfl := known.eq_of_overlap longest (by omega) (by omega)
    exact member

/-- The scan completes, and the runs are exactly the longest pieces without wildcards, from left to
right. What lies in none of them is a wildcard. -/
theorem runs_longest (text : String) :
    scan? text = some (runs text) ∧
    (runs text).Pairwise (fun run later => run.stop < later.start) ∧
    (∀ run, run ∈ runs text ↔ run.Longest text) ∧
    ∀ item ∈ located 0 text.toList, item.2 = wildcard ∨
      ∃ run ∈ runs text, run.start ≤ item.1 ∧ item.1 + item.2.utf8Size ≤ run.stop + 1 := by
  refine ⟨scan?_eq_some text, ?_, mem_runs_iff text, ?_⟩
  · refine (runsFrom_separated 0 text.toList).imp_of_mem ?_
    intro run later member _ gap
    have stop := Run.stop_add_one (longest_of_mem_runs member).nonempty
    omega
  · intro item listed
    refine (runsFrom_covers 0 text.toList item listed).imp_right ?_
    intro found
    obtain ⟨run, member, early, late⟩ := found
    have stop := Run.stop_add_one (longest_of_mem_runs member).nonempty
    exact ⟨run, member, early, stop ▸ late⟩

/-- A run may start with a character of several bytes. -/
theorem runs_longest_accented :
    (0, 'é') ∈ located 0 "é1x😀".toList ∧
    ∃ run ∈ runs "é1x😀", run.start ≤ 0 ∧ 0 + 'é'.utf8Size ≤ run.stop + 1 := by
  have listed : (0, 'é') ∈ located 0 "é1x😀".toList := List.mem_cons_self
  exact ⟨listed, ((runs_longest "é1x😀").2.2.2 (0, 'é') listed).resolve_left (by decide)⟩

end DecoderTables
