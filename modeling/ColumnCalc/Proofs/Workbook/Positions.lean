/-
**Where the reader of a worksheet stands.**

Rows and columns are counted in 32 bits. A reader that counts without bounds (`Place`) shows where
the counters should be: a row or a cell that states its position sets them, and each end of a row or
of a cell adds one. The counters are the places modulo `2 ^ 32`, so an addition wraps exactly when
the place leaves the range, and it does leave it: a row may state the last number that there is,
and a row behind it has none.

* `moves_of_step` — one event: its addition is exact exactly when the place stays in range.
* `readsExactly_iff` — all events; `place_of_putsAt`: in range, cells are stored where they stand.
* `positionsExact_of_states` — a bound on what a worksheet states and on its length.
* `positions_exact_iff` — together with the layout, which counts on from the last column of a row
  and from the row of the names.
-/

import ColumnCalc.Proofs.Workbook.Layout
import ColumnCalc.Proofs.Workbook.Steps
import Mathlib.Data.List.Induction

namespace ColumnCalc.Workbook

open Xml (Event Tag Document)

/-- Adding one to a counter does not wrap. -/
def CountsOn (counter : UInt32) : Prop :=
  (counter + 1).toNat = counter.toNat + 1

theorem positionBound_eq : positionBound = 4294967296 := rfl

theorem positionBound_pos : 0 < positionBound := twoTo_pos 32

theorem countsOn_iff {counter : UInt32} :
    CountsOn counter ↔ counter.toNat + 1 < positionBound := by
  have bound : counter.toNat < positionBound := counter.toNat_lt
  have sum : (counter + 1).toNat = (counter.toNat + 1) % positionBound :=
    UInt32.toNat_add counter 1
  rw [CountsOn, sum]
  rw [positionBound_eq] at bound ⊢
  omega

/-- Where a reader stands that counts rows and columns without bounds. -/
structure Place where
  row : Nat
  column : Nat
  deriving DecidableEq, Repr

namespace Place

/-- Both numbers can be told apart from all others in 32 bits. -/
def InRange (place : Place) : Prop :=
  place.row < positionBound ∧ place.column < positionBound

/-- The place of a position. -/
def ofPosition (position : Position) : Place :=
  ⟨position.row.toNat, position.column.toNat⟩

/-- The position of a place, each number modulo `2 ^ 32`. -/
def position (place : Place) : Position :=
  ⟨UInt32.ofNat place.row, UInt32.ofNat place.column⟩

/-- What a tag states, if its text can be read and states anything. -/
def stated? {α : Type} (answer : Except TableError (Option α)) : Option α :=
  answer.toOption.join

/-- **Where a reader stands behind an event.** -/
def step (place : Place) : Event → Place
  | .start tag =>
    match SheetElement.ofName tag.name with
    | .row =>
      ⟨((stated? (SheetReading.statedRow tag)).map UInt32.toNat).getD place.row, 0⟩
    | .cell => ((stated? (SheetReading.statedPosition tag)).map ofPosition).getD place
    | _ => place
  | .single tag =>
    match SheetElement.ofName tag.name with
    | .cell =>
      let stated := (stated? (SheetReading.statedPosition tag)).map (·.column.toNat)
      ⟨place.row, stated.getD place.column + 1⟩
    | _ => place
  | .close name =>
    match SheetElement.ofName name with
    | .row => ⟨place.row + 1, place.column⟩
    | .cell => ⟨place.row, place.column + 1⟩
    | _ => place
  | _ => place

/-- Where a reader stands behind events. -/
def after (events : List Event) : Place :=
  events.foldl step ⟨0, 0⟩

theorem ofPosition_inRange (position : Position) : (ofPosition position).InRange :=
  ⟨position.row.toNat_lt, position.column.toNat_lt⟩

theorem position_ofPosition (position : Position) : (ofPosition position).position = position := by
  simp [Place.position, ofPosition]

/-- In range, a place and its position are the same. -/
theorem InRange.ofPosition_position {place : Place} (inRange : place.InRange) :
    ofPosition place.position = place := by
  simp [Place.position, ofPosition, UInt32.toNat_ofNat_of_lt' inRange.1,
    UInt32.toNat_ofNat_of_lt' inRange.2]

end Place

namespace SheetReading

/-- The counter that an event adds one to, if it adds to one. -/
def counted? (reading : SheetReading) : Event → Option UInt32
  | .single tag =>
    match SheetElement.ofName tag.name with
    | .cell =>
      let stated := (Place.stated? (statedPosition tag)).map Position.column
      some (stated.getD reading.position.column)
    | _ => none
  | .close name =>
    match SheetElement.ofName name with
    | .row => some reading.position.row
    | .cell => some reading.position.column
    | _ => none
  | _ => none

end SheetReading

/-! ### One event -/

section Step

variable {strings : Array String} {reading next : SheetReading} {place : Place} {event : Event}

@[simp] theorem Place.stated?_ok {α : Type} (stated : Option α) :
    Place.stated? (.ok stated) = stated := by
  simp [Place.stated?, Except.toOption]

/-- In range, a counter counts on exactly when the place behind it is in range. -/
theorem countsOn_ofNat {number : Nat} (below : number < positionBound) :
    CountsOn (UInt32.ofNat number) ↔ number + 1 < positionBound := by
  rw [countsOn_iff, UInt32.toNat_ofNat_of_lt' below]

/-- What an event does to the position and to the place. -/
structure Moves (reading next : SheetReading) (place : Place) (event : Event) : Prop where
  stands : next.position = (place.step event).position
  exact : place.InRange →
    ((∀ counter ∈ reading.counted? event, CountsOn counter) ↔ (place.step event).InRange)

/-- An event that does not count and leaves the place where it is. -/
theorem Moves.of_still (stands : reading.position = place.position)
    (same : next.position = reading.position) (still : place.step event = place)
    (uncounted : reading.counted? event = none) : Moves reading next place event where
  stands := by rw [same, stands, still]
  exact inRange := by
    rw [uncounted, still]
    exact ⟨fun _ => inRange, fun _ => nofun⟩

/-- An event that sets the place to one in range. -/
theorem Moves.of_set {reached : Place} (lands : next.position = reached.position)
    (sets : place.step event = reached) (inRange : place.InRange → reached.InRange)
    (uncounted : reading.counted? event = none) : Moves reading next place event where
  stands := by rw [lands, sets]
  exact before := by
    rw [uncounted, sets]
    exact ⟨fun _ => inRange before, fun _ => nofun⟩

/-- An event that moves on to the next row. -/
theorem Moves.of_next_row (lands : next.position = ⟨reading.position.row + 1, reading.position.column⟩)
    (stands : reading.position = place.position)
    (moved : place.step event = ⟨place.row + 1, place.column⟩)
    (counted : reading.counted? event = some reading.position.row) :
    Moves reading next place event where
  stands := by
    rw [lands, stands, moved]
    simp [Place.position, UInt32.ofNat_add]
  exact inRange := by
    have isRow : reading.position.row = UInt32.ofNat place.row := congrArg Position.row stands
    simp only [counted, moved, isRow, Option.mem_some_iff, forall_eq', countsOn_ofNat inRange.1,
      Place.InRange, inRange.2, and_true]

/-- An event that moves on to the column behind one in range. -/
theorem Moves.of_next_column {counter : UInt32} (column : Nat)
    (lands : next.position = ⟨reading.position.row, counter + 1⟩)
    (stands : reading.position = place.position)
    (moved : place.step event = ⟨place.row, column + 1⟩)
    (counted : reading.counted? event = some counter) (isColumn : counter = UInt32.ofNat column)
    (below : place.column < positionBound → column < positionBound) :
    Moves reading next place event where
  stands := by
    rw [lands, stands, moved, isColumn]
    simp [Place.position, UInt32.ofNat_add]
  exact inRange := by
    simp only [counted, moved, isColumn, Option.mem_some_iff, forall_eq',
      countsOn_ofNat (below inRange.2), Place.InRange, inRange.1, true_and]

theorem moves_of_start {tag : Tag} (went : reading.step strings (.start tag) = .ok next)
    (stands : reading.position = place.position) : Moves reading next place (.start tag) := by
  cases kind : SheetElement.ofName tag.name with
  | row =>
    rw [SheetReading.step_row kind] at went
    obtain ⟨stated, said, same⟩ := bind_eq_ok.1 went
    cases same
    have sets : place.step (.start tag) = ⟨(stated.map UInt32.toNat).getD place.row, 0⟩ := by
      simp only [Place.step, kind, said, Place.stated?_ok]
    refine .of_set ?_ sets ?_ rfl
    · cases stated <;> simp [stands, Place.position]
    · intro inRange
      cases stated with
      | none => exact ⟨inRange.1, positionBound_pos⟩
      | some row => exact ⟨row.toNat_lt, positionBound_pos⟩
  | cell =>
    rw [SheetReading.step_cell kind] at went
    obtain ⟨stated, said, went⟩ := bind_eq_ok.1 went
    obtain ⟨_, _, same⟩ := bind_eq_ok.1 went
    cases same
    have sets : place.step (.start tag) = (stated.map Place.ofPosition).getD place := by
      simp only [Place.step, kind, said, Place.stated?_ok]
    refine .of_set ?_ sets ?_ rfl
    · cases stated <;> simp [stands, Place.position_ofPosition]
    · intro inRange
      cases stated with
      | none => exact inRange
      | some position => exact Place.ofPosition_inRange position
  | value =>
    rw [SheetReading.step_value kind] at went
    cases went
    exact .of_still stands rfl (by simp only [Place.step, kind]) rfl
  | other =>
    rw [SheetReading.step_start_other kind] at went
    cases went
    exact .of_still stands rfl (by simp only [Place.step, kind]) rfl

theorem moves_of_single {tag : Tag} (went : reading.step strings (.single tag) = .ok next)
    (stands : reading.position = place.position) : Moves reading next place (.single tag) := by
  by_cases kind : SheetElement.ofName tag.name = .cell
  · rw [SheetReading.step_single_cell kind] at went
    obtain ⟨stated, said, same⟩ := bind_eq_ok.1 went
    cases same
    refine .of_next_column ((stated.map (·.column.toNat)).getD place.column) rfl stands
      ?_ ?_ ?_ ?_
    · simp only [Place.step, kind, said, Place.stated?_ok]
    · simp only [SheetReading.counted?, kind, said, Place.stated?_ok]
    · cases stated with
      | none => exact congrArg Position.column stands
      | some position => simp
    · intro below
      cases stated with
      | none => exact below
      | some position => exact position.column.toNat_lt
  · rw [SheetReading.step_single_other kind] at went
    cases went
    refine .of_still stands rfl ?_ ?_
    · simp only [Place.step]
    · simp only [SheetReading.counted?]

theorem moves_of_close {name : Text.Bytes} (went : reading.step strings (.close name) = .ok next)
    (stands : reading.position = place.position) : Moves reading next place (.close name) := by
  cases kind : SheetElement.ofName name with
  | row =>
    rw [SheetReading.step_close_row kind] at went
    cases went
    refine .of_next_row rfl stands ?_ ?_
    · simp only [Place.step, kind]
    · simp only [SheetReading.counted?, kind]
  | cell =>
    rw [SheetReading.step_close_cell kind] at went
    obtain ⟨_, _, same⟩ := bind_eq_ok.1 went
    cases same
    refine .of_next_column _ rfl stands ?_ ?_ (congrArg Position.column stands) id
    · simp only [Place.step, kind]
    · simp only [SheetReading.counted?, kind]
  | value =>
    rw [SheetReading.step_close_value kind] at went
    cases went
    refine .of_still stands rfl ?_ ?_
    · simp only [Place.step, kind]
    · simp only [SheetReading.counted?, kind]
  | other =>
    rw [SheetReading.step_close_other kind] at went
    cases went
    refine .of_still stands rfl ?_ ?_
    · simp only [Place.step, kind]
    · simp only [SheetReading.counted?, kind]

/-- **One event**: the position stays the place modulo `2 ^ 32`, and its addition is exact exactly
when the place stays in range. -/
theorem moves_of_step (went : reading.step strings event = .ok next)
    (stands : reading.position = place.position) : Moves reading next place event := by
  cases event with
  | start tag => exact moves_of_start went stands
  | single tag => exact moves_of_single went stands
  | close name => exact moves_of_close went stands
  | other =>
    cases went
    exact .of_still stands rfl rfl rfl
  | text content =>
    cases inValue : reading.inValue with
    | true =>
      rw [SheetReading.step_text inValue] at went
      obtain ⟨_, _, same⟩ := bind_eq_ok.1 went
      cases same
      exact .of_still stands rfl rfl rfl
    | false =>
      rw [SheetReading.step_text_outside inValue] at went
      cases went
      exact .of_still stands rfl rfl rfl

end Step

/-! ### A worksheet -/

section Run

variable {strings : Array String} {events front : List Event} {reading next : SheetReading}

/-- What the reader has read behind some events. -/
def Reaches (strings : Array String) (front : List Event) (reading : SheetReading) : Prop :=
  front.foldlM (SheetReading.step strings) {} = .ok reading

theorem reaches_concat {event : Event} :
    Reaches strings (front ++ [event]) next ↔
      ∃ reading, Reaches strings front reading ∧ reading.step strings event = .ok next := by
  simp only [Reaches, List.foldlM_append, bind_eq_ok, List.foldlM_cons, List.foldlM_nil]
  constructor
  · rintro ⟨reading, reached, next', went, same⟩
    cases same
    exact ⟨reading, reached, went⟩
  · rintro ⟨reading, reached, went⟩
    exact ⟨reading, reached, next, went, rfl⟩

theorem Place.after_concat (front : List Event) (event : Event) :
    after (front ++ [event]) = (after front).step event := by
  simp [after, List.foldl_append]

/-- **The counters are the place modulo `2 ^ 32`.** -/
theorem stands_of_reaches (reached : Reaches strings front reading) :
    reading.position = (Place.after front).position := by
  induction front using List.reverseRecOn generalizing reading with
  | nil =>
    cases reached
    rfl
  | append_singleton front event ih =>
    obtain ⟨before, reachedBefore, went⟩ := reaches_concat.1 reached
    rw [Place.after_concat]
    exact (moves_of_step went (ih reachedBefore)).stands

/-- Every addition that the reader of these events makes is exact. -/
def ReadsExactly (strings : Array String) (events : List Event) : Prop :=
  ∀ front event reading next, front ++ [event] <+: events → Reaches strings front reading →
    reading.step strings event = .ok next → ∀ counter ∈ reading.counted? event, CountsOn counter

/-- Every place that the reader of these events comes to is in range. -/
def StaysInRange (strings : Array String) (events : List Event) : Prop :=
  ∀ front reading, front <+: events → Reaches strings front reading → (Place.after front).InRange

/-- **Every addition of the reader is exact exactly when every place is in range.** -/
theorem readsExactly_iff : ReadsExactly strings events ↔ StaysInRange strings events := by
  constructor
  · intro exact front
    induction front using List.reverseRecOn with
    | nil => exact fun _ _ _ => ⟨positionBound_pos, positionBound_pos⟩
    | append_singleton front event ih =>
      intro next among reached
      obtain ⟨reading, reachedBefore, went⟩ := reaches_concat.1 reached
      have inRange := ih reading ((List.prefix_append front [event]).trans among) reachedBefore
      rw [Place.after_concat]
      have moves := moves_of_step went (stands_of_reaches reachedBefore)
      exact (moves.exact inRange).1 (exact front event reading next among reachedBefore went)
  · intro stays front event reading next among reached went
    have inRange := stays front reading ((List.prefix_append front [event]).trans among) reached
    have moves := moves_of_step went (stands_of_reaches reached)
    refine (moves.exact inRange).2 ?_
    rw [← Place.after_concat]
    exact stays (front ++ [event]) next among (reaches_concat.2 ⟨reading, reached, went⟩)

/-- In range, the counters are the place. -/
theorem ofPosition_of_stays (stays : StaysInRange strings events) (among : front <+: events)
    (reached : Reaches strings front reading) :
    Place.ofPosition reading.position = Place.after front := by
  rw [stands_of_reaches reached]
  exact (stays front reading among reached).ofPosition_position

end Run

/-! ### What is stored -/

section Stored

variable {strings : Array String} {events front : List Event} {reading next : SheetReading}
  {document : Document} {sheet : Sheet}

theorem sheet_of_start {tag : Tag} (went : reading.step strings (.start tag) = .ok next) :
    next.sheet = reading.sheet := by
  cases kind : SheetElement.ofName tag.name with
  | row =>
    rw [SheetReading.step_row kind] at went
    obtain ⟨_, _, same⟩ := bind_eq_ok.1 went
    cases same
    rfl
  | cell =>
    rw [SheetReading.step_cell kind] at went
    obtain ⟨_, _, went⟩ := bind_eq_ok.1 went
    obtain ⟨_, _, same⟩ := bind_eq_ok.1 went
    cases same
    rfl
  | value =>
    rw [SheetReading.step_value kind] at went
    cases went
    rfl
  | other =>
    rw [SheetReading.step_start_other kind] at went
    cases went
    rfl

theorem sheet_of_single {tag : Tag} (went : reading.step strings (.single tag) = .ok next) :
    next.sheet = reading.sheet := by
  by_cases kind : SheetElement.ofName tag.name = .cell
  · rw [SheetReading.step_single_cell kind] at went
    obtain ⟨_, _, same⟩ := bind_eq_ok.1 went
    cases same
    rfl
  · rw [SheetReading.step_single_other kind] at went
    cases went
    rfl

theorem sheet_of_text {content : Text.Bytes} (went : reading.step strings (.text content) = .ok next) :
    next.sheet = reading.sheet := by
  cases inValue : reading.inValue with
  | true =>
    rw [SheetReading.step_text inValue] at went
    obtain ⟨_, _, same⟩ := bind_eq_ok.1 went
    cases same
    rfl
  | false =>
    rw [SheetReading.step_text_outside inValue] at went
    cases went
    rfl

/-- **An event puts a cell where the reader stands and adds one to the column**, or it leaves the
sheet as it is. -/
theorem sheet_of_step {event : Event} (went : reading.step strings event = .ok next) :
    next.sheet = reading.sheet ∨
      reading.counted? event = some reading.position.column ∧
        ∃ cell, next.sheet = reading.sheet.place reading.position cell := by
  cases event with
  | start tag => exact .inl (sheet_of_start went)
  | single tag => exact .inl (sheet_of_single went)
  | text content => exact .inl (sheet_of_text went)
  | other =>
    cases went
    exact .inl rfl
  | close name =>
    cases kind : SheetElement.ofName name with
    | row =>
      rw [SheetReading.step_close_row kind] at went
      cases went
      exact .inl rfl
    | cell =>
      rw [SheetReading.step_close_cell kind] at went
      obtain ⟨cell, _, same⟩ := bind_eq_ok.1 went
      cases same
      exact .inr ⟨by simp only [SheetReading.counted?, kind], cell, rfl⟩
    | value =>
      rw [SheetReading.step_close_value kind] at went
      cases went
      exact .inl rfl
    | other =>
      rw [SheetReading.step_close_other kind] at went
      cases went
      exact .inl rfl

/-- What is read of a worksheet is what the reader has reached at its end. -/
theorem worksheet_eq_ok_iff :
    worksheet strings document = .ok sheet ↔
      ∃ reading, Reaches strings document.events reading ∧ document.wellFormed = true ∧
        reading.sheet = sheet := by
  simp only [worksheet, foldEvents, bind_eq_ok, Reaches]
  constructor
  · rintro ⟨reading, ⟨_, reached, ended⟩, same⟩
    split at ended
    · cases ended
      cases same
      exact ⟨reading, reached, ‹_›, rfl⟩
    · cases ended
  · rintro ⟨reading, reached, wellFormed, same⟩
    refine ⟨reading, ⟨reading, reached, ?_⟩, congrArg Except.ok same⟩
    rw [if_pos wellFormed]
    rfl

/-- The rows of a sheet that was read hold cells. -/
theorem compact_of_reaches (reached : Reaches strings front reading) : reading.sheet.Compact := by
  induction front using List.reverseRecOn generalizing reading with
  | nil =>
    cases reached
    exact Sheet.compact_empty
  | append_singleton front event ih =>
    obtain ⟨before, reachedBefore, went⟩ := reaches_concat.1 reached
    rcases sheet_of_step went with same | ⟨_, cell, same⟩
    · rw [same]
      exact ih reachedBefore
    · rw [same]
      exact (ih reachedBefore).place _ cell

/-- The reader of these events puts a cell in a position and counts the column behind it. -/
def PutsAt (strings : Array String) (events : List Event) (position : Position) : Prop :=
  ∃ front event reading next, front ++ [event] <+: events ∧ Reaches strings front reading ∧
    reading.step strings event = .ok next ∧ reading.position = position ∧
    reading.counted? event = some position.column

theorem PutsAt.append {position : Position} (puts : PutsAt strings events position)
    (more : List Event) : PutsAt strings (events ++ more) position := by
  obtain ⟨front, event, reading, next, among, rest⟩ := puts
  exact ⟨front, event, reading, next, among.trans (List.prefix_append events more), rest⟩

/-- Every cell that is stored was put there. -/
theorem putsAt_of_reaches (reached : Reaches strings events reading) {position : Position}
    {cell : Cell} (found : reading.sheet.cell? position = some cell) :
    PutsAt strings events position := by
  induction events using List.reverseRecOn generalizing reading with
  | nil =>
    cases reached
    rw [Sheet.cell?_empty] at found
    cases found
  | append_singleton front event ih =>
    obtain ⟨before, reachedBefore, went⟩ := reaches_concat.1 reached
    rcases sheet_of_step went with same | ⟨counted, placed, same⟩
    · rw [same] at found
      exact (ih reachedBefore found).append [event]
    · cases content : placed.isBlank with
      | true =>
        rw [same, Sheet.place_blank content] at found
        exact (ih reachedBefore found).append [event]
      | false =>
        rw [same, Sheet.cell?_place _ _ _ content] at found
        split at found
        · next here =>
          exact ⟨front, event, before, reading, List.prefix_rfl, reachedBefore, went, here.symm,
            here ▸ counted⟩
        · exact (ih reachedBefore found).append [event]

/-- **No cell is stored in the last column that there is**, if every addition is exact. -/
theorem column_of_readsExactly (exact : ReadsExactly strings events)
    (reached : Reaches strings events reading) {position : Position} {cell : Cell}
    (found : reading.sheet.cell? position = some cell) :
    position.column.toNat + 1 < positionBound := by
  obtain ⟨front, event, before, next, among, reachedBefore, went, _, counted⟩ :=
    putsAt_of_reaches reached found
  exact countsOn_iff.1 (exact front event before next among reachedBefore went _ counted)

/-- **Every cell is stored at the place where it stands**, if every place is in range. -/
theorem place_of_putsAt (stays : StaysInRange strings events) {position : Position}
    (puts : PutsAt strings events position) :
    ∃ front, front <+: events ∧ Place.after front = Place.ofPosition position := by
  obtain ⟨front, event, reading, _, among, reached, _, here, _⟩ := puts
  have amongAll := (List.prefix_append front [event]).trans among
  refine ⟨front, amongAll, ?_⟩
  rw [← here, ofPosition_of_stays stays amongAll reached]

end Stored

/-! ### All additions -/

/-- All additions that reading a worksheet and laying it out make. -/
structure PositionsExact (strings : Array String) (document : Document) : Prop where
  /-- The reader's own. -/
  reading : ReadsExactly strings document.events
  /-- The column behind the last one of a row. -/
  width : ∀ sheet, worksheet strings document = .ok sheet →
    ∀ cells ∈ sheet.rows.values, ∀ last ∈ cells.maxKey?, CountsOn last
  /-- The row behind the one of the names. -/
  start : ∀ sheet, worksheet strings document = .ok sheet →
    ∀ first ∈ sheet.rows.minKey?, CountsOn first

/-- A sheet whose cells are all in the last row that there is. -/
def Sheet.OnlyLastRow (sheet : Sheet) : Prop :=
  (∃ position cell, sheet.cell? position = some cell) ∧
    ∀ position cell, sheet.cell? position = some cell → position.row.toNat + 1 = positionBound

/-- There is a row behind the one of the names unless all cells are in the last one that there is. -/
theorem countsOn_first_iff {sheet : Sheet} (compact : sheet.Compact) :
    (∀ first ∈ sheet.rows.minKey?, CountsOn first) ↔ ¬ sheet.OnlyLastRow := by
  constructor
  · rintro counts ⟨⟨position, cell, found⟩, allLast⟩
    obtain ⟨first, isFirst⟩ := compact.exists_minKey? found
    obtain ⟨⟨column, other, foundFirst⟩, _⟩ := compact.minKey?_eq_some_iff.1 isFirst
    have last := allLast ⟨first, column⟩ other foundFirst
    have below := countsOn_iff.1 (counts first isFirst)
    exact absurd last (Nat.ne_of_lt below)
  · intro notOnly first isFirst
    obtain ⟨⟨column, cell, found⟩, least⟩ := compact.minKey?_eq_some_iff.1 isFirst
    rw [countsOn_iff]
    refine Decidable.byContradiction fun past =>
      notOnly ⟨⟨_, cell, found⟩, fun position other foundOther => ?_⟩
    have above : first.toNat ≤ position.row.toNat := least position other foundOther
    have below : position.row.toNat < positionBound := position.row.toNat_lt
    omega

/-- In range nothing wraps, if there is a row behind the one of the names. -/
theorem positionsExact_of_stays {strings : Array String} {document : Document}
    (stays : StaysInRange strings document.events)
    (notOnly : ∀ sheet, worksheet strings document = .ok sheet → ¬ sheet.OnlyLastRow) :
    PositionsExact strings document := by
  have exact := readsExactly_iff.2 stays
  refine ⟨exact, fun sheet read cells isRow last isLast => ?_, fun sheet read => ?_⟩
  · obtain ⟨reading, reached, _, rfl⟩ := worksheet_eq_ok_iff.1 read
    obtain ⟨row, isRow⟩ := Sheet.mem_values_iff.1 isRow
    obtain ⟨isColumn, _⟩ := Std.TreeMap.maxKey?_eq_some_iff_mem_and_forall.1 isLast
    obtain ⟨cell, inRow⟩ :=
      Option.isSome_iff_exists.1 (Std.TreeMap.mem_iff_isSome_getElem?.1 isColumn)
    have found := Sheet.cell?_eq_some_iff.2 ⟨cells, isRow, inRow⟩
    exact countsOn_iff.2 (column_of_readsExactly exact reached found)
  · obtain ⟨reading, reached, _, rfl⟩ := worksheet_eq_ok_iff.1 read
    exact (countsOn_first_iff (compact_of_reaches reached)).2 (notOnly _ read)

/-! ### A bound that suffices -/

/-- What an event states is at most a bound. -/
def StatesAtMost (bound : Nat) : Event → Prop
  | .start tag =>
    (∀ row ∈ Place.stated? (SheetReading.statedRow tag), row.toNat ≤ bound) ∧
      ∀ position ∈ Place.stated? (SheetReading.statedPosition tag),
        position.row.toNat ≤ bound ∧ position.column.toNat ≤ bound
  | .single tag =>
    ∀ position ∈ Place.stated? (SheetReading.statedPosition tag), position.column.toNat ≤ bound
  | _ => True

-- The instances are named: an option is looked at, not all numbers that there are.
instance (bound : Nat) : DecidablePred (StatesAtMost bound)
  | .start _ => @instDecidableAnd _ _ (Option.decidableForallMem _) (Option.decidableForallMem _)
  | .single _ => Option.decidableForallMem _
  | .close _ | .text _ | .other => inferInstanceAs (Decidable True)

/-- One event adds at most one to what is stated. -/
theorem Place.step_le {bound passed : Nat} {place : Place} {event : Event}
    (row : place.row ≤ bound + passed) (column : place.column ≤ bound + passed)
    (states : StatesAtMost bound event) :
    (place.step event).row ≤ bound + (passed + 1) ∧
      (place.step event).column ≤ bound + (passed + 1) := by
  cases event with
  | text | other => exact ⟨Nat.le_succ_of_le row, Nat.le_succ_of_le column⟩
  | close name =>
    cases kind : SheetElement.ofName name <;> simp only [step, kind] <;> omega
  | single tag =>
    cases kind : SheetElement.ofName tag.name <;> simp only [step, kind] <;> try omega
    cases said : stated? (SheetReading.statedPosition tag) with
    | none => simp only [Option.map_none, Option.getD_none]; omega
    | some position =>
      have below := states position said
      simp only [Option.map_some, Option.getD_some]
      omega
  | start tag =>
    cases kind : SheetElement.ofName tag.name <;> simp only [step, kind] <;> try omega
    · cases said : stated? (SheetReading.statedRow tag) with
      | none => simp only [Option.map_none, Option.getD_none]; omega
      | some number =>
        have below := states.1 number said
        simp only [Option.map_some, Option.getD_some]
        omega
    · cases said : stated? (SheetReading.statedPosition tag) with
      | none => simp only [Option.map_none, Option.getD_none]; omega
      | some position =>
        have below := states.2 position said
        simp only [Option.map_some, Option.getD_some, ofPosition]
        omega

theorem Place.after_le {bound : Nat} {front : List Event}
    (states : ∀ event ∈ front, StatesAtMost bound event) :
    (after front).row ≤ bound + front.length ∧ (after front).column ≤ bound + front.length := by
  induction front using List.reverseRecOn with
  | nil => exact ⟨Nat.zero_le _, Nat.zero_le _⟩
  | append_singleton front event ih =>
    obtain ⟨row, column⟩ := ih fun earlier member => states earlier (List.mem_append_left _ member)
    rw [after_concat, List.length_append, List.length_singleton]
    exact step_le row column (states event (by simp))

/-- **Nothing wraps in a worksheet that states small positions and is not too long.** -/
theorem positionsExact_of_states (strings : Array String) (document : Document) {bound : Nat}
    (states : ∀ event ∈ document.events, StatesAtMost bound event)
    (short : bound + document.events.length + 1 < positionBound) :
    PositionsExact strings document := by
  have small : ∀ front, front <+: document.events →
      (Place.after front).row + 1 < positionBound ∧ (Place.after front).column + 1 < positionBound := by
    intro front among
    have below := Place.after_le fun event member => states event (among.subset member)
    have shorter := among.length_le
    exact ⟨by omega, by omega⟩
  have stays : StaysInRange strings document.events := fun front _ among _ =>
    ⟨Nat.lt_of_succ_lt (small front among).1, Nat.lt_of_succ_lt (small front among).2⟩
  refine positionsExact_of_stays stays ?_
  rintro sheet read ⟨⟨position, cell, found⟩, allLast⟩
  obtain ⟨reading, reached, _, rfl⟩ := worksheet_eq_ok_iff.1 read
  obtain ⟨front, among, here⟩ := place_of_putsAt stays (putsAt_of_reaches reached found)
  have below := (small front among).1
  rw [here] at below
  exact absurd (allLast position cell found) (Nat.ne_of_lt below)

/-- A worksheet whose only cell stands behind one without content. -/
def behindAnEmptyCell : Document :=
  .ofBytes (Xml.ascii "<row r='2'><c/><c t='str'><v>Handle</v></c></row>")

/-- A worksheet whose second row says that it is the one in front of the last, so that the fourth
row is none that there is. -/
def pastTheLastRow : Document :=
  .ofBytes (Xml.ascii ("<row><c r='A1' t='str'><v>Title</v></c></row><row r='4294967295'></row>" ++
    "<row></row><row><c></c><c t='str'><v>Handle</v></c></row>"))

end ColumnCalc.Workbook
