/-
**Templates are applied formula by formula.**

A template accepts all of its formulas before it evaluates any; then it writes its columns, each to
the table that the one in front of it has left. It comes to the same to take the formulas one at a
time (`Table.applyOneByOne`): accept a text, apply it, go on with the table that it leaves. Whether
a text is accepted does not depend on a table, so neither does the error of a template.

* `apply_eq_oneByOne` — both ways give the same answer, whatever it is.
* `applyOneByOne_error_iff` — the error is that of the first text that is not accepted.
* `outcomes_of_oneByOne` — one list of outcomes per column, and one outcome per row in each.
* `apply_one_by_one` — all of it, for every template.
-/

import ColumnCalc.Proofs.Table.RowByRow
import ColumnCalc.Proofs.Failure
import ColumnCalc.Proofs.Text.Utf8
import ColumnCalc.Template.Basic

namespace ColumnCalc

/-- **Formulas applied one at a time**: each text is accepted and applied to the table that the
texts in front of it have left. -/
def Table.applyOneByOne (limits : Limits) (table : Table) :
    List (String × String) → Except FormulaError AppliedTemplate
  | [] => .ok ⟨table, []⟩
  | (column, text) :: rest => do
    let first ← table.applyToColumn column text limits
    let others ← first.table.applyOneByOne limits rest
    return ⟨others.table, (column, first.outcomes) :: others.outcomes⟩

namespace Template

/-- A text that is accepted as a formula. -/
def Accepts (limits : Limits) (text : String) : Prop :=
  ∃ formula, Formula.accept text limits = .ok formula

/-- **The error of a template**: that of the rejected formula whose column has the least name. -/
def RejectedWith (template : Template) (limits : Limits) (error : FormulaError) : Prop :=
  ∃ column text, template.formulas.get? column = some text ∧
    Formula.accept text limits = .error error ∧
    ∀ earlier < column, ∀ other, template.formulas.get? earlier = some other → Accepts limits other

end Template

open Template (Accepts)

variable {limits : Limits} {table : Table}

/-! ### One formula in front of others -/

theorem Table.applyToColumn_of_accepted {text : String} {formula : Formula}
    (accepted : Formula.accept text limits = .ok formula) (table : Table) (column : String) :
    table.applyToColumn column text limits = .ok (formula.apply table column) := by
  unfold applyToColumn
  rw [accepted]
  rfl

theorem Table.applyToColumn_of_rejected {text : String} {error : FormulaError}
    (rejected : Formula.accept text limits = .error error) (table : Table) (column : String) :
    table.applyToColumn column text limits = .error error := by
  unfold applyToColumn
  rw [rejected]
  rfl

/-- The columns of formulas are written one after another. -/
def AppliedTemplate.addAll (applied : AppliedTemplate) (formulas : List (String × Formula)) :
    AppliedTemplate :=
  formulas.foldl (fun applied (column, formula) => applied.add column formula) applied

/-- The outcomes that are there already stay in front. -/
theorem AppliedTemplate.addAll_eq (formulas : List (String × Formula)) (table : Table)
    (outcomes : List (String × List Outcome)) :
    addAll ⟨table, outcomes⟩ formulas
      = ⟨(addAll ⟨table, []⟩ formulas).table,
          outcomes ++ (addAll ⟨table, []⟩ formulas).outcomes⟩ := by
  induction formulas generalizing table outcomes with
  | nil => simp [addAll]
  | cons first rest ih =>
    obtain ⟨column, formula⟩ := first
    have step : ∀ outcomes, addAll ⟨table, outcomes⟩ ((column, formula) :: rest)
        = addAll ⟨(formula.apply table column).table,
            outcomes ++ [(column, (formula.apply table column).outcomes)]⟩ rest := fun _ => rfl
    rw [step, step, ih _ (outcomes ++ _), ih _ ([] ++ _)]
    simp only [List.nil_append, List.append_assoc]

/-! ### All at once or one at a time -/

/-- The formulas of entries, all of them accepted. -/
def acceptEach (limits : Limits) (entries : List (String × String)) :
    Except FormulaError (List (String × Formula)) :=
  entries.mapM fun (column, text) => do return (column, ← Formula.accept text limits)

/-- An entry is accepted in front of others. -/
theorem acceptEach_cons (limits : Limits) (column text : String)
    (rest : List (String × String)) :
    acceptEach limits ((column, text) :: rest)
      = (do
          let formula ← Formula.accept text limits
          let others ← acceptEach limits rest
          return (column, formula) :: others) := by
  rw [acceptEach, List.mapM_cons]
  simp only [bind_assoc, pure_bind]
  rfl

/-- **Accepting all texts and applying the formulas then is applying the texts one at a time.** -/
theorem applyOneByOne_eq (limits : Limits) (entries : List (String × String)) (table : Table) :
    (acceptEach limits entries).map (AppliedTemplate.addAll ⟨table, []⟩)
      = table.applyOneByOne limits entries := by
  induction entries generalizing table with
  | nil => rfl
  | cons entry rest ih =>
    obtain ⟨column, text⟩ := entry
    rw [acceptEach_cons, Table.applyOneByOne]
    cases accepted : Formula.accept text limits with
    | error error =>
      rw [Table.applyToColumn_of_rejected accepted]
      rfl
    | ok formula =>
      rw [Table.applyToColumn_of_accepted accepted]
      have further := ih (formula.apply table column).table
      cases others : acceptEach limits rest with
      | error error =>
        rw [others] at further
        show Except.error error = (Table.applyOneByOne limits _ rest >>= _)
        rw [← further]
        rfl
      | ok formulas =>
        rw [others] at further
        show Except.ok (AppliedTemplate.addAll ⟨(formula.apply table column).table,
            [(column, (formula.apply table column).outcomes)]⟩ formulas)
          = (Table.applyOneByOne limits _ rest >>= _)
        rw [← further, AppliedTemplate.addAll_eq]
        rfl

/-- **A template is applied as if its formulas were applied one at a time**, in the order of their
columns. -/
theorem apply_eq_oneByOne (template : Template) (table : Table) (limits : Limits) :
    template.apply table limits = table.applyOneByOne limits template.formulas.entries := by
  rw [← applyOneByOne_eq]
  rfl

/-! ### Errors -/

/-- **The error is that of the first text that is not accepted**, whatever the table. -/
theorem applyOneByOne_error_iff {entries : List (String × String)}
    (ascending : entries.Pairwise fun first second => first.1 < second.1) (table : Table)
    (error : FormulaError) :
    table.applyOneByOne limits entries = .error error ↔
      ∃ entry ∈ entries, Formula.accept entry.2 limits = .error error ∧
        ∀ earlier ∈ entries, earlier.1 < entry.1 → Accepts limits earlier.2 := by
  induction entries generalizing table with
  | nil => exact ⟨nofun, fun ⟨_, member, _⟩ => nomatch member⟩
  | cons first rest ih =>
    obtain ⟨least, tail⟩ := List.pairwise_cons.1 ascending
    rw [Table.applyOneByOne]
    cases accepted : Formula.accept first.2 limits with
    | error cause =>
      rw [Table.applyToColumn_of_rejected accepted]
      constructor
      · rintro ⟨⟩
        refine ⟨first, .head _, accepted, fun earlier member before => ?_⟩
        rcases List.mem_cons.1 member with rfl | later
        · exact absurd before (String.lt_irrefl _)
        · exact absurd (String.lt_trans before (least earlier later)) (String.lt_irrefl _)
      · rintro ⟨entry, member, rejected, allAccepted⟩
        rcases List.mem_cons.1 member with rfl | later
        · rw [accepted] at rejected
          cases rejected
          rfl
        · obtain ⟨_, isAccepted⟩ := allAccepted first (.head _) (least entry later)
          cases accepted.symm.trans isAccepted
    | ok formula =>
      rw [Table.applyToColumn_of_accepted accepted]
      have further : (do
          let others ← (formula.apply table first.1).table.applyOneByOne limits rest
          return (⟨others.table, (first.1, (formula.apply table first.1).outcomes)
            :: others.outcomes⟩ : AppliedTemplate)) = .error error
            ↔ (formula.apply table first.1).table.applyOneByOne limits rest = .error error := by
        cases (formula.apply table first.1).table.applyOneByOne limits rest with
        | error cause => exact ⟨fun same => by cases same; rfl, fun same => by cases same; rfl⟩
        | ok applied => exact ⟨nofun, nofun⟩
      refine further.trans ((ih tail _).trans ?_)
      constructor
      · rintro ⟨entry, member, rejected, allAccepted⟩
        refine ⟨entry, .tail _ member, rejected, fun earlier isEarlier before => ?_⟩
        rcases List.mem_cons.1 isEarlier with rfl | later
        · exact ⟨formula, accepted⟩
        · exact allAccepted earlier later before
      · rintro ⟨entry, member, rejected, allAccepted⟩
        rcases List.mem_cons.1 member with rfl | later
        · cases accepted.symm.trans rejected
        · exact ⟨entry, later, rejected, fun earlier isEarlier =>
            allAccepted earlier (.tail _ isEarlier)⟩

/-- The error of a template is found through the look-up. -/
theorem Template.apply_error_iff (template : Template) (table : Table) (error : FormulaError) :
    template.apply table limits = .error error ↔ template.RejectedWith limits error := by
  rw [apply_eq_oneByOne, applyOneByOne_error_iff template.formulas.ascending]
  simp only [Prod.exists, Prod.forall, Dictionary.mem_entries_iff, Template.RejectedWith]
  constructor
  · rintro ⟨column, text, found, rejected, allAccepted⟩
    exact ⟨column, text, found, rejected, fun earlier before other isOther =>
      allAccepted earlier other isOther before⟩
  · rintro ⟨column, text, found, rejected, allAccepted⟩
    exact ⟨column, text, found, rejected, fun earlier other isOther before =>
      allAccepted earlier before other isOther⟩

/-- **A template whose formulas are all accepted is applied**, whatever the table. -/
theorem Template.exists_apply (template : Template)
    (allAccepted : ∀ column text, template.formulas.get? column = some text → Accepts limits text)
    (table : Table) : ∃ applied, template.apply table limits = .ok applied := by
  cases isApplied : template.apply table limits with
  | error error =>
    obtain ⟨column, text, found, rejected, _⟩ := (template.apply_error_iff table error).1 isApplied
    obtain ⟨_, isAccepted⟩ := allAccepted column text found
    cases rejected.symm.trans isAccepted
  | ok applied => exact ⟨applied, rfl⟩

/-! ### Outcomes -/

/-- A formula keeps the number of rows, whatever the rows hold. -/
theorem Formula.size_apply (formula : Formula) (table : Table) (column : String) :
    (formula.apply table column).table.size = table.size :=
  table.size_setColumn column (formula.length_cells table)

/-- **A list of outcomes for each column, in order, and one outcome for each row in it.** -/
theorem outcomes_of_oneByOne {entries : List (String × String)} {applied : AppliedTemplate}
    (isApplied : table.applyOneByOne limits entries = .ok applied) :
    applied.outcomes.map (·.1) = entries.map (·.1) ∧
      ∀ column outcomes, (column, outcomes) ∈ applied.outcomes →
        outcomes.length = table.size := by
  induction entries generalizing table applied with
  | nil =>
    cases isApplied
    exact ⟨rfl, nofun⟩
  | cons entry rest ih =>
    obtain ⟨first, isFirst, went⟩ := bind_eq_ok.1 isApplied
    obtain ⟨others, areOthers, same⟩ := bind_eq_ok.1 went
    obtain ⟨formula, _, made⟩ := bind_eq_ok.1 isFirst
    cases same
    cases made
    obtain ⟨names, counts⟩ := ih areOthers
    refine ⟨congrArg (entry.1 :: ·) names, fun column outcomes member => ?_⟩
    rcases List.mem_cons.1 member with same | later
    · cases same
      exact formula.length_outcomes table
    · rw [counts column outcomes later, Formula.size_apply]

/-- **Applying a template is applying its formulas one at a time**, in ascending order of the bytes
of their columns, each to the table that the one before it has left. It succeeds exactly if every
formula is accepted; then there is a list of outcomes for each column in that order, with one outcome
for each row. Otherwise its error is that of the rejected formula whose column has the least name:
the same on every table, whatever the formulas in front of it give there. -/
theorem apply_one_by_one (template : Template) (limits : Limits) (table : Table) :
    (template.apply table limits = table.applyOneByOne limits template.formulas.entries ∧
      template.formulas.entries.Pairwise fun first second =>
        Text.Utf8.encode first.1.toList < Text.Utf8.encode second.1.toList) ∧
    ((∀ column text, template.formulas.get? column = some text → Accepts limits text) →
      ∃ applied, template.apply table limits = .ok applied ∧
        applied.outcomes.map (·.1) = template.formulas.keys ∧
        ∀ column outcomes, (column, outcomes) ∈ applied.outcomes →
          outcomes.length = table.size) ∧
    ∀ error, template.apply table limits = .error error ↔ template.RejectedWith limits error := by
  have ascending := template.formulas.ascending.imp fun {first second} less =>
    Text.Utf8.encode_lt (String.lt_iff.1 less)
  refine ⟨⟨apply_eq_oneByOne template table limits, ascending⟩, ?_,
    template.apply_error_iff table⟩
  intro allAccepted
  obtain ⟨applied, isApplied⟩ := template.exists_apply allAccepted table
  obtain ⟨names, counts⟩ := outcomes_of_oneByOne
    ((apply_eq_oneByOne template table limits).symm.trans isApplied)
  exact ⟨applied, isApplied, names, counts⟩

/-- Column `a` is written before `b`, which reads it, although `b` is given first. -/
theorem apply_one_by_one_chain :
    let template : Template := ⟨"chain", .empty, .ofList [("b", "a"), ("a", "cost")]⟩
    let table : Table := ⟨["cost"], [[.number 1], [.empty]]⟩
    (∀ column text, template.formulas.get? column = some text → Accepts {} text) ∧
    ∃ applied, template.apply table = .ok applied ∧
      applied.outcomes.map (·.1) = ["a", "b"] ∧
      ∀ column outcomes, (column, outcomes) ∈ applied.outcomes → outcomes.length = 2 := by
  intro template table
  have cost : Accepts {} "cost" := ⟨⟨"cost", .name "cost" ⟨0, 4⟩⟩, by with_unfolding_all rfl⟩
  have a : Accepts {} "a" := ⟨⟨"a", .name "a" ⟨0, 1⟩⟩, by with_unfolding_all rfl⟩
  have entries : template.formulas.entries = [("a", "cost"), ("b", "a")] := by decide +kernel
  have allAccepted : ∀ column text, template.formulas.get? column = some text →
      Accepts {} text := by
    intro column text found
    rw [← Dictionary.mem_entries_iff, entries] at found
    simp only [List.mem_cons, Prod.mk.injEq, List.not_mem_nil, or_false] at found
    rcases found with ⟨_, rfl⟩ | ⟨_, rfl⟩
    · exact cost
    · exact a
  refine ⟨allAccepted, ?_⟩
  have applied := (apply_one_by_one template {} table).2.1 allAccepted
  rw [Dictionary.keys, entries] at applied
  exact applied

end ColumnCalc
