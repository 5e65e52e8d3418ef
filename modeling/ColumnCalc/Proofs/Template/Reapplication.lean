/-
**Applying a template again changes nothing.**

A formula that does not read its own column finds on the table that it has written what it found
before, and writes the same cells. In a template this goes on along the chain of formulas, as long as
none reads its own column or one that is written behind it: what a formula reads is then complete
when its turn comes, in the first run and in the second. A row without a value makes no difference,
its cell is empty and is read as missing both times.

* `apply_of_written` — a formula on a table that holds its cells already.
* `frame_of_oneByOne` — what a run of formulas leaves alone.
* `oneByOne_again` — a run on its own result, by induction along the run.
* `reapply_unchanged` — templates and single formulas.
-/

import ColumnCalc.Proofs.Table.Contexts
import ColumnCalc.Proofs.Template.Application

namespace ColumnCalc

open Template (Accepts)

/-- **No formula of a template reads its own column or one that comes behind it** in the order of
the bytes of the columns. It may read any column that the template does not write, and any that it
writes before. -/
def Template.ReadsBackward (template : Template) (limits : Limits) : Prop :=
  ∀ column text formula, template.formulas.get? column = some text →
    Formula.accept text limits = .ok formula →
    ∀ target, (template.formulas.get? target).isSome →
      target = column ∨ Text.Utf8.encode column.toList < Text.Utf8.encode target.toList →
      target ∉ formula.tree.reads

variable {limits : Limits} {table : Table}

/-! ### One formula -/

/-- **A formula on a table that holds its cells already** leaves the table as it is. -/
theorem Formula.apply_of_written {formula : Formula} {column : String} {later : Table}
    (rectangular : later.Rectangular)
    (sameOutcomes : formula.outcomes later = formula.outcomes table)
    (isColumn : later.column? column = some ((formula.outcomes table).map Cell.ofOutcome)) :
    formula.apply later column = ⟨later, (formula.apply table column).outcomes⟩ := by
  show (⟨later.setColumn column ((formula.outcomes later).map Cell.ofOutcome),
    formula.outcomes later⟩ : Applied) = ⟨later, formula.outcomes table⟩
  rw [sameOutcomes, Table.setColumn_column? rectangular isColumn]

/-- The column that a formula has written. -/
theorem Formula.column?_apply (rectangular : table.Rectangular) (formula : Formula)
    (column name : String) :
    (formula.apply table column).table.column? name
      = if name = column then some ((formula.outcomes table).map Cell.ofOutcome)
        else table.column? name :=
  Table.column?_setColumn rectangular column (formula.length_cells table) name

/-- **A formula that does not read its column is applied twice as it is applied once.** -/
theorem Formula.apply_again (rectangular : table.Rectangular) {formula : Formula} {column : String}
    (unread : column ∉ formula.tree.reads) :
    formula.apply (formula.apply table column).table column = formula.apply table column := by
  refine apply_of_written (formula.rectangular_apply rectangular column) ?_ ?_
  · exact outcomes_setColumn rectangular unread (formula.length_cells table)
  · rw [column?_apply rectangular, if_pos rfl]

/-! ### A run of formulas -/

/-- The first formula of a run and the others. -/
theorem oneByOne_cons_eq_ok {column text : String} {rest : List (String × String)}
    {applied : AppliedTemplate} :
    table.applyOneByOne limits ((column, text) :: rest) = .ok applied ↔
      ∃ formula others, Formula.accept text limits = .ok formula ∧
        (formula.apply table column).table.applyOneByOne limits rest = .ok others ∧
        applied = ⟨others.table,
          (column, (formula.apply table column).outcomes) :: others.outcomes⟩ := by
  rw [Table.applyOneByOne, bind_eq_ok]
  constructor
  · rintro ⟨first, isFirst, went⟩
    obtain ⟨formula, isAccepted, made⟩ := bind_eq_ok.1 isFirst
    obtain ⟨others, areOthers, same⟩ := bind_eq_ok.1 went
    cases made
    cases same
    exact ⟨formula, others, isAccepted, areOthers, rfl⟩
  · rintro ⟨formula, others, isAccepted, areOthers, rfl⟩
    exact ⟨_, Table.applyToColumn_of_accepted isAccepted table column,
      bind_eq_ok.2 ⟨others, areOthers, rfl⟩⟩

/-- **What a run of formulas leaves alone**: the table stays rectangular, columns that are not
written keep their cells, and a formula that reads no written column keeps its outcomes. -/
theorem frame_of_oneByOne {entries : List (String × String)} {applied : AppliedTemplate}
    (rectangular : table.Rectangular)
    (isApplied : table.applyOneByOne limits entries = .ok applied) :
    applied.table.Rectangular ∧
    (∀ name, (∀ entry ∈ entries, entry.1 ≠ name) →
      applied.table.column? name = table.column? name) ∧
    ∀ formula : Formula, (∀ entry ∈ entries, entry.1 ∉ formula.tree.reads) →
      formula.outcomes applied.table = formula.outcomes table := by
  induction entries generalizing table applied with
  | nil =>
    cases isApplied
    exact ⟨rectangular, fun _ _ => rfl, fun _ _ => rfl⟩
  | cons entry rest ih =>
    obtain ⟨column, text⟩ := entry
    obtain ⟨first, others, _, areOthers, rfl⟩ := oneByOne_cons_eq_ok.1 isApplied
    obtain ⟨isRectangular, columns, outcomes⟩ :=
      ih (first.rectangular_apply rectangular column) areOthers
    refine ⟨isRectangular, fun name unwritten => ?_, fun formula unread => ?_⟩
    · rw [columns name fun entry member => unwritten entry (.tail _ member),
        Formula.column?_apply rectangular, if_neg (unwritten _ (.head _)).symm]
    · rw [outcomes formula fun entry member => unread entry (.tail _ member)]
      exact Formula.outcomes_setColumn rectangular (unread _ (.head _)) (first.length_cells table)

/-- A run in which no formula reads its own column or one behind it. -/
structure RunsForward (limits : Limits) (entries : List (String × String)) : Prop where
  distinct : entries.Pairwise fun earlier later => later.1 ≠ earlier.1
  own : ∀ entry ∈ entries, ∀ formula, Formula.accept entry.2 limits = .ok formula →
    entry.1 ∉ formula.tree.reads
  behind : entries.Pairwise fun earlier later => ∀ formula,
    Formula.accept earlier.2 limits = .ok formula → later.1 ∉ formula.tree.reads

theorem RunsForward.tail {entry : String × String} {rest : List (String × String)}
    (forward : RunsForward limits (entry :: rest)) : RunsForward limits rest where
  distinct := (List.pairwise_cons.1 forward.distinct).2
  own later member := forward.own later (.tail _ member)
  behind := (List.pairwise_cons.1 forward.behind).2

/-- **A run of formulas on its own result gives that result again.** The result holds the cells of
every formula of the run, and no formula reads a column that is written behind it, so the induction
can follow the first run and compare every formula with its first turn. -/
theorem oneByOne_again {entries : List (String × String)} {applied : AppliedTemplate}
    (forward : RunsForward limits entries) (rectangular : table.Rectangular)
    (isApplied : table.applyOneByOne limits entries = .ok applied) :
    applied.table.applyOneByOne limits entries = .ok applied := by
  induction entries generalizing table applied with
  | nil =>
    cases isApplied
    rfl
  | cons entry rest ih =>
    obtain ⟨column, text⟩ := entry
    obtain ⟨formula, others, isAccepted, areOthers, rfl⟩ := oneByOne_cons_eq_ok.1 isApplied
    have afterFirst := formula.rectangular_apply rectangular column
    obtain ⟨isRectangular, columns, outcomes⟩ := frame_of_oneByOne afterFirst areOthers
    have unreadBehind : ∀ later ∈ rest, later.1 ∉ formula.tree.reads := fun later member =>
      (List.pairwise_cons.1 forward.behind).1 later member formula isAccepted
    have unwrittenBehind : ∀ later ∈ rest, later.1 ≠ column :=
      (List.pairwise_cons.1 forward.distinct).1
    have unchanged : formula.apply others.table column
        = ⟨others.table, (formula.apply table column).outcomes⟩ := by
      refine Formula.apply_of_written isRectangular ?_ ?_
      · rw [outcomes formula unreadBehind]
        exact Formula.outcomes_setColumn rectangular
          (forward.own _ (.head _) formula isAccepted) (formula.length_cells table)
      · rw [columns column unwrittenBehind, Formula.column?_apply rectangular, if_pos rfl]
    refine oneByOne_cons_eq_ok.2 ⟨formula, others, isAccepted, ?_, ?_⟩
    · rw [unchanged]
      exact ih forward.tail afterFirst areOthers
    · rw [unchanged]

/-- The formulas of a template that reads backward run forward. -/
theorem Template.ReadsBackward.runsForward {template : Template}
    (backward : template.ReadsBackward limits) : RunsForward limits template.formulas.entries where
  distinct := template.formulas.ascending.imp fun {earlier later} before => by
    intro same
    rw [same] at before
    exact String.lt_irrefl _ before
  own entry member formula isAccepted := by
    have found := (Dictionary.mem_entries_iff _ entry.1 entry.2).1 member
    exact backward entry.1 entry.2 formula found isAccepted entry.1 (Option.isSome_of_eq_some found)
      (.inl rfl)
  behind := template.formulas.ascending.imp_of_mem
    fun {earlier later} isEarlier isLater before formula isAccepted => by
      have found := (Dictionary.mem_entries_iff _ earlier.1 earlier.2).1 isEarlier
      have foundLater := (Dictionary.mem_entries_iff _ later.1 later.2).1 isLater
      exact backward earlier.1 earlier.2 formula found isAccepted later.1
        (Option.isSome_of_eq_some foundLater)
        (.inr (Text.Utf8.encode_lt (String.lt_iff.1 before)))

/-- **Applying a template to its own result changes nothing**, neither the table nor an outcome of
any column or row, if its formulas are accepted and none reads its own column or one behind it. The
same holds for a single formula that does not read its column. -/
theorem reapply_unchanged :
    (∀ (template : Template) (limits : Limits) (table : Table), table.Rectangular →
      (∀ column text, template.formulas.get? column = some text → Accepts limits text) →
      template.ReadsBackward limits →
      ∃ applied, template.apply table limits = .ok applied ∧
        template.apply applied.table limits = .ok applied) ∧
    ∀ (table : Table) (column text : String) (limits : Limits) (formula : Formula),
      table.Rectangular → Formula.accept text limits = .ok formula →
      column ∉ formula.tree.reads →
      ∃ applied, table.applyToColumn column text limits = .ok applied ∧
        applied.table.applyToColumn column text limits = .ok applied := by
  constructor
  · intro template limits table rectangular allAccepted backward
    obtain ⟨applied, isApplied⟩ := template.exists_apply allAccepted table
    refine ⟨applied, isApplied, ?_⟩
    rw [apply_eq_oneByOne] at isApplied ⊢
    exact oneByOne_again backward.runsForward rectangular isApplied
  · intro table column text limits formula rectangular isAccepted unread
    refine ⟨formula.apply table column,
      Table.applyToColumn_of_accepted isAccepted table column, ?_⟩
    rw [Table.applyToColumn_of_accepted isAccepted, Formula.apply_again rectangular unread]

/-- `b` reads `a`, which is written before it; in the second row `a` has no value, and so has `b`,
both times. -/
theorem reapply_unchanged_chain :
    let template : Template := ⟨"chain", .empty, .ofList [("b", "a - n"), ("a", "cost")]⟩
    let table : Table := ⟨["n", "cost"], [[.number 1, .number 3], [.number 1, .text "x"]]⟩
    (table.Rectangular ∧
      (∀ column text, template.formulas.get? column = some text → Accepts {} text) ∧
      template.ReadsBackward {}) ∧
    ∃ applied, template.apply table = .ok applied ∧ template.apply applied.table = .ok applied := by
  intro template table
  have rectangular : table.Rectangular := by decide
  have cost : Formula.accept "cost" {} = .ok ⟨"cost", .name "cost" ⟨0, 4⟩⟩ := by
    with_unfolding_all rfl
  have difference : Formula.accept "a - n" {}
      = .ok ⟨"a - n", .binary .sub (.name "a" ⟨0, 1⟩) (.name "n" ⟨4, 1⟩)⟩ := by
    with_unfolding_all rfl
  have entries : template.formulas.entries = [("a", "cost"), ("b", "a - n")] := by decide +kernel
  have written : ∀ column text, template.formulas.get? column = some text →
      column = "a" ∧ text = "cost" ∨ column = "b" ∧ text = "a - n" := by
    intro column text found
    rw [← Dictionary.mem_entries_iff, entries] at found
    simpa using found
  have allAccepted : ∀ column text, template.formulas.get? column = some text →
      Accepts {} text := by
    intro column text found
    rcases written column text found with ⟨_, rfl⟩ | ⟨_, rfl⟩
    · exact ⟨_, cost⟩
    · exact ⟨_, difference⟩
  have backward : template.ReadsBackward {} := by
    intro column text formula found isAccepted target isTarget notBefore
    obtain ⟨other, isOther⟩ := Option.isSome_iff_exists.1 isTarget
    rcases written column text found with ⟨rfl, rfl⟩ | ⟨rfl, rfl⟩
    · rw [cost] at isAccepted
      cases isAccepted
      rcases written target other isOther with ⟨rfl, _⟩ | ⟨rfl, _⟩ <;> decide +kernel
    · rw [difference] at isAccepted
      cases isAccepted
      rcases written target other isOther with ⟨rfl, _⟩ | ⟨rfl, _⟩
      · exact absurd notBefore (by decide +kernel)
      · decide +kernel
  exact ⟨⟨rectangular, allAccepted, backward⟩,
    reapply_unchanged.1 template {} table rectangular allAccepted backward⟩

end ColumnCalc
