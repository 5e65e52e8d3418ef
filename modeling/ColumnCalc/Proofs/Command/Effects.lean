/-
**What runs do to files.**

A run reads, decides and then writes. So a run that fails over what it was given leaves the files as
they are, whichever of its steps fails and whatever its output names, and a run that succeeds has
written its output and nothing else. What a row has no value for is only reported.

* `Keeps`, `Spares` — actions that leave the files as they are, always or when they fail over the
  data; `Spares.bind` puts them together.
* `outcome_readTable`, `outcome_writeTable` — the step that reads a table and the one that writes it.
* `perform_spares` — no command changes a file if it fails over the data.
* `delivers_runApply`, `delivers_runImport` — when a run succeeds, and what it writes then.
* `run_leaves_files` — all of it, for the arguments of a run.
-/

import ColumnCalc.Command.Run
import ColumnCalc.Proofs.Template.Store

namespace ColumnCalc

open Text.Utf8 (encode)

/-- Something is wrong with what a run was given: a formula, a table or a template. Otherwise the
files themselves do not allow what is asked for. -/
def Failure.IsOfData : Failure → Prop
  | formula _ => True
  | columnFormula _ _ => True
  | table _ _ => True
  | template (.inaccessible _) => False
  | template _ => True
  | unwritable _ => False

/-! ### Actions on files -/

/-- A computation on files that may fail. -/
abbrev FileAction (α : Type) := ExceptT Failure (StateM FileTree) α

namespace FileAction

variable {α β : Type} {tree after : FileTree}

/-- The answer of an action, and the files behind it. -/
def outcome (action : FileAction α) (tree : FileTree) : Except Failure α × FileTree :=
  action.run.run tree

/-- A step that succeeds is followed by the others. -/
theorem outcome_bind_ok {first : FileAction α} {value : α}
    (went : first.outcome tree = (.ok value, after)) (further : α → FileAction β) :
    outcome (first >>= further) tree = (further value).outcome after := by
  unfold outcome at went ⊢
  rw [ExceptT.run_bind, StateT.run_bind, went]
  rfl

/-- A step that fails is the last one. -/
theorem outcome_bind_error {first : FileAction α} {failure : Failure}
    (failed : first.outcome tree = (.error failure, after)) (further : α → FileAction β) :
    outcome (first >>= further) tree = (.error failure, after) := by
  unfold outcome at failed ⊢
  rw [ExceptT.run_bind, StateT.run_bind, failed]
  rfl

/-- Steps succeed if each of them does. -/
theorem outcome_bind_eq_ok {first : FileAction α} {further : α → FileAction β} {answer : β} :
    outcome (first >>= further) tree = (.ok answer, after) ↔ ∃ value left,
      first.outcome tree = (.ok value, left) ∧
        (further value).outcome left = (.ok answer, after) := by
  cases went : first.outcome tree with
  | mk result left =>
    cases result with
    | error failure =>
      rw [outcome_bind_error went]
      exact ⟨nofun, fun ⟨_, _, impossible, _⟩ => nomatch impossible⟩
    | ok value =>
      rw [outcome_bind_ok went]
      constructor
      · exact fun goesOn => ⟨value, left, rfl, goesOn⟩
      · rintro ⟨_, _, same, goesOn⟩
        cases same
        exact goesOn

/-- A step that cannot fail. -/
theorem outcome_liftM (step : StateM FileTree α) (tree : FileTree) :
    outcome (liftM step) tree = (.ok (step.run tree).1, (step.run tree).2) := rfl

/-- The files are left as they are. -/
def Keeps (action : FileAction α) : Prop :=
  ∀ tree, (action.outcome tree).2 = tree

/-- **A failure over the data leaves the files as they are.** -/
def Spares (action : FileAction α) : Prop :=
  ∀ tree failure after, action.outcome tree = (.error failure, after) → failure.IsOfData →
    after = tree

theorem keeps_pure (value : α) : Keeps (pure value) := fun _ => rfl

theorem keeps_orFail {ε : Type} (failure : ε → Failure) (result : Except ε α) :
    Keeps (Command.orFail failure result) := fun _ => rfl

namespace Keeps

variable {action : FileAction α}

theorem bind (keeps : action.Keeps) {further : α → FileAction β}
    (others : ∀ value, (further value).Keeps) : Keeps (action >>= further) := by
  intro tree
  have same := keeps tree
  cases went : action.outcome tree with
  | mk answer after =>
    rw [went] at same
    cases same
    cases answer with
    | error failure => rw [outcome_bind_error went]
    | ok value => rw [outcome_bind_ok went, others value]

theorem spares (keeps : action.Keeps) : action.Spares := by
  intro tree failure after failed _
  rw [← keeps tree, failed]

end Keeps

/-- **What is only read in front of an action does not matter to the files.** -/
theorem Spares.bind {action : FileAction α} (keeps : action.Keeps) {further : α → FileAction β}
    (spares : ∀ value, (further value).Spares) : Spares (action >>= further) := by
  intro tree failure after failed isOfData
  have same := keeps tree
  cases went : action.outcome tree with
  | mk answer read =>
    rw [went] at same
    cases same
    cases answer with
    | error cause =>
      rw [outcome_bind_error went] at failed
      cases failed
      rfl
    | ok value =>
      rw [outcome_bind_ok went] at failed
      exact spares value _ failure after failed isOfData

end FileAction

open FileAction (Keeps Spares outcome_liftM outcome_bind_ok outcome_bind_error keeps_orFail
  keeps_pure)

/-! ### Steps -/

variable {tree after : FileTree}

/-- The table that a file holds. -/
def tableIn (tree : FileTree) (path : Path) : Except Failure Table :=
  match tree.contentOf path with
  | .error _ => .error (.table path (.unopened path.text))
  | .ok content =>
    (if path.isWorkbook then Table.ofXlsx content else Table.ofCsv content).mapError (.table path)

theorem tableIn_eq_error {path : Path} {failure : Failure}
    (failed : tableIn tree path = .error failure) : ∃ error, failure = .table path error := by
  unfold tableIn at failed
  split at failed
  · cases failed
    exact ⟨_, rfl⟩
  · rename_i content _
    cases read : (if path.isWorkbook then Table.ofXlsx content else Table.ofCsv content) with
    | error error =>
      rw [read] at failed
      cases failed
      exact ⟨error, rfl⟩
    | ok table =>
      rw [read] at failed
      cases failed

/-- **A table is read** without a change to the files. -/
theorem outcome_readTable (path : Path) (tree : FileTree) :
    FileAction.outcome (Command.readTable path) tree = (tableIn tree path, tree) := by
  unfold Command.readTable tableIn
  rw [outcome_bind_ok (outcome_liftM _ tree)]
  simp only [FileAccess.contentOf, StateT.run_bind, StateT.run_get, pure_bind, StateT.run_pure]
  cases tree.contentOf path <;> rfl

theorem keeps_readTable (path : Path) : Keeps (Command.readTable path) := fun tree => by
  rw [outcome_readTable]

/-- What a table is written as, and the files behind it. -/
def written (tree : FileTree) (table : Table) (rename : Option HeaderMapping)
    (messages : List String) : Option Path → Except Failure Report × FileTree
  | none => (.ok { output := table.toCsv rename, messages := Command.lines messages }, tree)
  | some path =>
    match tree.writeContent path (encode (table.toCsv rename).toList) with
    | .error _ => (.error (.unwritable path), tree)
    | .ok after => (.ok { messages := Command.lines messages }, after)

/-- **A table is written** to its output. -/
theorem outcome_writeTable (table : Table) (rename : Option HeaderMapping) (output : Option Path)
    (messages : List String) (tree : FileTree) :
    FileAction.outcome (Command.writeTable table rename output messages) tree
      = written tree table rename messages output := by
  cases output with
  | none => rfl
  | some path =>
    unfold Command.writeTable written
    rw [outcome_bind_ok (outcome_liftM _ tree)]
    simp only [FileAccess.writeContent, StateT.run_bind, StateT.run_get, pure_bind]
    cases tree.writeContent path (encode (table.toCsv rename).toList) <;> rfl

theorem written_eq_error {table : Table} {rename : Option HeaderMapping} {messages : List String}
    {output : Option Path} {failure : Failure}
    (failed : written tree table rename messages output = (.error failure, after)) :
    after = tree ∧ ∃ path, failure = .unwritable path := by
  unfold written at failed
  split at failed
  · cases failed
  · split at failed
    · cases failed
      exact ⟨rfl, _, rfl⟩
    · cases failed

theorem spares_writeTable (table : Table) (rename : Option HeaderMapping) (output : Option Path)
    (messages : List String) : Spares (Command.writeTable table rename output messages) := by
  intro tree failure after failed _
  rw [outcome_writeTable] at failed
  exact (written_eq_error failed).1

theorem keeps_list (store : TemplateStore) :
    Keeps (liftM (store.list : StateM FileTree (Except TemplateError (List String)))) := by
  intro tree
  rw [outcome_liftM, TemplateStore.run_list]

theorem keeps_load (store : TemplateStore) (name : String) :
    Keeps (liftM (store.load name : StateM FileTree (Except TemplateError Template))) := by
  intro tree
  rw [outcome_liftM]
  by_cases improper : TemplateStore.Improper name
  · rw [TemplateStore.run_load_of_improper improper]
  · rw [TemplateStore.run_load improper]

/-- **A template that is not saved** leaves the files as they are, unless they are why. -/
theorem save_spares (store : TemplateStore) (template : Template) {error : TemplateError}
    (fails : (store.save template : StateM FileTree _).run tree = (.error error, after))
    (isOfData : (Failure.template error).IsOfData) : after = tree := by
  by_cases improper : TemplateStore.Improper template.name
  · cases (TemplateStore.run_save_of_improper improper).symm.trans fails
    rfl
  · rw [TemplateStore.run_save improper] at fails
    dsimp only at fails
    split at fails
    · cases fails
      exact isOfData.elim
    · split at fails <;> cases fails
      exact isOfData.elim

/-- A template is saved, and it is told where. -/
def keep (store : TemplateStore) (template : Template) (report : Path → Report) :
    FileAction Report := do
  let path ← Command.orFail .template
    (← (store.save template : StateM FileTree (Except TemplateError Path)))
  return report path

/-- A run that saves accepts all formulas in front of that. -/
theorem runSave_eq (limits : Limits) (directory : Path) (name : String)
    (mapping formulas : List (String × String)) :
    Command.runSave limits directory name mapping formulas = (do
      Command.orFail id (Command.acceptAll limits formulas)
      keep ⟨directory⟩ (Command.templateOf name mapping formulas) fun path =>
        { output := Command.lines ["saved " ++ path.text] } : FileAction Report) :=
  rfl

theorem outcome_keep (store : TemplateStore) (template : Template) (report : Path → Report)
    (tree : FileTree) : FileAction.outcome (keep store template report) tree =
      match (store.save template : StateM FileTree _).run tree with
      | (.ok path, after) => (.ok (report path), after)
      | (.error error, after) => (.error (.template error), after) := by
  unfold keep
  rw [outcome_bind_ok (outcome_liftM _ tree)]
  cases (store.save template : StateM FileTree _).run tree with
  | mk answer after => cases answer <;> rfl

theorem spares_keep (store : TemplateStore) (template : Template) (report : Path → Report) :
    Spares (keep store template report) := by
  intro tree failure after failed isOfData
  rw [outcome_keep] at failed
  split at failed
  · cases failed
  · rename_i saved
    cases failed
    exact save_spares store template saved isOfData

/-! ### Commands -/

/-- **No command changes a file if it fails over the data.** -/
theorem perform_spares (limits : Limits) (command : Command) :
    Spares (command.perform limits) := by
  cases command with
  | tokenize formula => exact (keeps_pure _).spares
  | check text => exact ((keeps_orFail _ _).bind fun _ => keeps_pure _).spares
  | apply input column text output =>
    exact .bind (keeps_orFail _ _) fun _ => .bind (keeps_readTable _) fun _ =>
      spares_writeTable _ _ _ _
  | headers input => exact ((keeps_readTable _).bind fun _ => keeps_pure _).spares
  | validateRows input => exact ((keeps_readTable _).bind fun _ => keeps_pure _).spares
  | saveTemplate directory name mapping formulas =>
    rw [Command.perform, runSave_eq]
    exact .bind (keeps_orFail _ _) fun _ => spares_keep _ _ _
  | listTemplates directory =>
    exact ((keeps_list _).bind fun _ => (keeps_orFail _ _).bind fun _ => keeps_pure _).spares
  | showTemplate directory name =>
    exact ((keeps_load _ _).bind fun _ => (keeps_orFail _ _).bind fun _ => keeps_pure _).spares
  | blank fields rows output => exact spares_writeTable _ _ _ _
  | importTable input name directory output =>
    exact .bind (keeps_load _ _) fun _ => .bind (keeps_orFail _ _) fun _ =>
      .bind (keeps_readTable _) fun _ => .bind (keeps_orFail _ _) fun _ =>
        spares_writeTable _ _ _ _

/-! ### What is written -/

/-- An output can be written to. -/
def Writable (tree : FileTree) : Option Path → Prop
  | none => True
  | some path => ∃ place, tree.place path = .ok place ∧ tree.find? place ≠ some .directory

/-- **Nothing but an output is changed.** -/
def ChangesOnly (tree after : FileTree) : Option Path → Prop
  | none => after = tree
  | some path => ∃ place content, tree.place path = .ok place ∧
      ∀ other, after.find? other = if other = place then some (.file content) else tree.find? other

/-- **An action delivers its output if it is prepared**: it succeeds exactly if moreover the output
can be written to. -/
structure Delivers (action : FileAction Report) (tree : FileTree) (prepared : Prop)
    (output : Option Path) : Prop where
  succeeds_iff : (∃ report after, action.outcome tree = (.ok report, after)) ↔
    prepared ∧ Writable tree output
  changes : ∀ report after, action.outcome tree = (.ok report, after) →
    report.status = 0 ∧ ChangesOnly tree after output

namespace Delivers

variable {α : Type} {prepared : Prop} {output : Option Path}

theorem writeTable (table : Table) (rename : Option HeaderMapping) (output : Option Path)
    (messages : List String) (tree : FileTree) :
    Delivers (Command.writeTable table rename output messages) tree True output := by
  cases output with
  | none =>
    refine ⟨⟨fun _ => ⟨trivial, trivial⟩, fun _ => ⟨_, _, rfl⟩⟩, fun report after went => ?_⟩
    cases went
    exact ⟨rfl, rfl⟩
  | some path =>
    have isOutcome := outcome_writeTable table rename (some path) messages tree
    cases writes : tree.writeContent path (encode (table.toCsv rename).toList) with
    | error fault =>
      simp only [written, writes] at isOutcome
      refine ⟨⟨?_, ?_⟩, ?_⟩
      · rintro ⟨report, after, went⟩
        cases isOutcome.symm.trans went
      · rintro ⟨_, place, leads, other⟩
        cases writes.symm.trans (FileTree.writeContent_eq_ok_iff.2 ⟨place, leads, other, rfl⟩)
      · intro report after went
        cases isOutcome.symm.trans went
    | ok after =>
      simp only [written, writes] at isOutcome
      obtain ⟨place, leads, noDirectory, isAfter⟩ := FileTree.writeContent_eq_ok_iff.1 writes
      refine ⟨⟨fun _ => ⟨trivial, place, leads, noDirectory⟩, fun _ => ⟨_, _, isOutcome⟩⟩, ?_⟩
      intro report left went
      cases isOutcome.symm.trans went
      refine ⟨rfl, place, encode (table.toCsv rename).toList, leads, fun other => ?_⟩
      rw [isAfter]
      exact FileTree.find?_put tree other _ (FileTree.ne_root_of_noDirectory noDirectory)

/-- What is read in front has to succeed as well. -/
theorem bind {first : FileAction α} {answer : Except Failure α}
    (reads : first.outcome tree = (answer, tree)) {further : α → FileAction Report}
    {preparedFor : α → Prop}
    (delivers : ∀ value, Delivers (further value) tree (preparedFor value) output) :
    Delivers (first >>= further) tree (∃ value, answer = .ok value ∧ preparedFor value) output := by
  cases answer with
  | error failure =>
    have failed := outcome_bind_error reads further
    refine ⟨⟨?_, ?_⟩, ?_⟩
    · rintro ⟨report, after, went⟩
      cases failed.symm.trans went
    · rintro ⟨⟨value, impossible, _⟩, _⟩
      cases impossible
    · intro report after went
      cases failed.symm.trans went
  | ok value =>
    have same := outcome_bind_ok reads further
    refine ⟨?_, fun report after went => (delivers value).changes report after (same ▸ went)⟩
    rw [same, (delivers value).succeeds_iff]
    simp

end Delivers

/-- What applying a formula to a column needs: the rows do not matter. -/
theorem delivers_runApply (limits : Limits) (input : Path) (column text : String)
    (output : Option Path) (tree : FileTree) :
    Delivers (Command.runApply limits input column text output) tree
      ((∃ formula, Formula.accept text limits = .ok formula) ∧
        ∃ table, tableIn tree input = .ok table) output := by
  have delivers : Delivers (Command.runApply limits input column text output) tree _ output :=
    .bind rfl fun formula => .bind (outcome_readTable input tree) fun table =>
      .writeTable (formula.apply table column).table none output _ tree
  refine ⟨delivers.succeeds_iff.trans (and_congr_left fun _ => ?_), delivers.changes⟩
  simp only [mapError_eq_ok, and_true]
  exact ⟨fun ⟨formula, accepted, read⟩ => ⟨⟨formula, accepted⟩, read⟩,
    fun ⟨⟨formula, accepted⟩, read⟩ => ⟨formula, accepted, read⟩⟩

/-- A template is applied if all of its formulas are accepted, whatever the table. -/
theorem exists_apply_iff (template : Template) (table : Table) (limits : Limits) :
    (∃ applied, template.apply table limits = .ok applied) ↔
      ∃ formulas, template.accept limits = .ok formulas := by
  unfold Template.apply
  constructor
  · rintro ⟨applied, isApplied⟩
    obtain ⟨formulas, accepted, _⟩ := bind_eq_ok.1 isApplied
    exact ⟨formulas, accepted⟩
  · rintro ⟨formulas, accepted⟩
    rw [accepted]
    exact ⟨_, rfl⟩

/-- What importing a table needs: a template that is kept and accepted, and a table. -/
theorem delivers_runImport (limits : Limits) (input : Path) (name : String) (directory : Path)
    (output : Option Path) (tree : FileTree) :
    Delivers (Command.runImport limits input name directory output) tree
      ((∃ template, ((TemplateStore.load ⟨directory⟩ name : StateM FileTree _).run tree).1
            = .ok template ∧ ∃ formulas, template.accept limits = .ok formulas) ∧
        ∃ table, tableIn tree input = .ok table) output := by
  have loads : FileAction.outcome
      (liftM (TemplateStore.load ⟨directory⟩ name : StateM FileTree _)) tree
      = (.ok ((TemplateStore.load ⟨directory⟩ name : StateM FileTree _).run tree).1, tree) :=
    Prod.ext rfl (keeps_load ⟨directory⟩ name tree)
  have delivers : Delivers (Command.runImport limits input name directory output) tree _ output :=
    .bind loads fun loaded => .bind rfl fun template =>
      .bind (outcome_readTable input tree) fun table => .bind rfl fun applied =>
        .writeTable applied.table (some (template.mappingFor applied.table)) output _ tree
  refine ⟨delivers.succeeds_iff.trans (and_congr_left fun _ => ?_), delivers.changes⟩
  simp only [mapError_eq_ok, and_true, exists_apply_iff, Except.ok.injEq, exists_eq_left']
  constructor
  · rintro ⟨template, loaded, table, read, accepted⟩
    exact ⟨⟨template, loaded, accepted⟩, table, read⟩
  · rintro ⟨⟨template, loaded, accepted⟩, table, read⟩
    exact ⟨template, loaded, table, read, accepted⟩

/-! ### Runs -/

theorem run_eq (limits : Limits) (command : Command) (tree : FileTree) :
    (command.run limits : StateM FileTree Report).run tree =
      match FileAction.outcome (command.perform limits) tree with
      | (.ok report, after) => (report, after)
      | (.error failure, after) => (Command.failed failure, after) := by
  unfold Command.run FileAction.outcome
  rw [StateT.run_bind]
  cases went : (command.perform limits : FileAction Report).run.run tree with
  | mk answer after => cases answer <;> rfl

theorem runArguments_eq {m : Type → Type} [Monad m] [FileAccess m] {arguments : List String}
    {limits : Limits} {command : Command}
    (given : Invocation.ofArguments arguments = .ok ⟨limits, command⟩) :
    (runArguments arguments : m Report) = command.run limits := by
  unfold runArguments
  rw [given]

/-- **A run writes its output and nothing else**, and it succeeds if it is prepared and the output
can be written to. -/
structure WritesOnly (result : Report × FileTree) (tree : FileTree) (prepared : Prop)
    (output : Option Path) : Prop where
  succeeds_iff : result.1.status = 0 ↔ prepared ∧ Writable tree output
  changes : result.1.status = 0 → ChangesOnly tree result.2 output

theorem Delivers.run {limits : Limits} {command : Command} {prepared : Prop} {output : Option Path}
    (delivers : Delivers (command.perform limits) tree prepared output) :
    WritesOnly ((command.run limits : StateM FileTree Report).run tree) tree prepared output := by
  have succeeds := delivers.succeeds_iff
  have changes := delivers.changes
  rw [run_eq]
  cases went : FileAction.outcome (command.perform limits) tree with
  | mk answer after =>
    rw [went] at succeeds changes
    cases answer with
    | error failure =>
      have unprepared : ¬(prepared ∧ Writable tree output) := fun ready => by
        obtain ⟨report, left, impossible⟩ := succeeds.2 ready
        cases impossible
      exact ⟨⟨nofun, fun ready => absurd ready unprepared⟩, nofun⟩
    | ok report =>
      obtain ⟨isFine, changed⟩ := changes report after rfl
      exact ⟨⟨fun _ => succeeds.1 ⟨report, after, rfl⟩, fun _ => isFine⟩, fun _ => changed⟩

/-- **A run that fails over its data leaves the files alone**: if it ends with an error of a formula,
of reading a table, or of a template that is missing, named improperly or malformed, every file is
as it was before and nothing is new, whatever the arguments name and whatever is there. Reporting
rows that lack fields changes nothing either way. A run that applies a formula or a template
succeeds exactly if all formulas are accepted, everything can be read and the output can be written
to, whatever the rows hold; and then nothing but the output has changed. -/
theorem run_leaves_files {arguments : List String} {limits : Limits} {command : Command}
    (given : Invocation.ofArguments arguments = .ok ⟨limits, command⟩) (tree : FileTree) :
    (∀ failure after,
      FileAction.outcome (command.perform limits) tree = (.error failure, after) → failure.IsOfData →
      (runArguments arguments : StateM FileTree Report).run tree
        = (Command.failed failure, tree)) ∧
    (∀ input, command = .validateRows input →
      ((runArguments arguments : StateM FileTree Report).run tree).2 = tree) ∧
    (∀ input column text output, command = .apply input column text output →
      WritesOnly ((runArguments arguments : StateM FileTree Report).run tree) tree
        ((∃ formula, Formula.accept text limits = .ok formula) ∧
          ∃ table, tableIn tree input = .ok table) output) ∧
    ∀ input name directory output, command = .importTable input name directory output →
      WritesOnly ((runArguments arguments : StateM FileTree Report).run tree) tree
        ((∃ template, ((TemplateStore.load ⟨directory⟩ name : StateM FileTree _).run tree).1
              = .ok template ∧ ∃ formulas, template.accept limits = .ok formulas) ∧
          ∃ table, tableIn tree input = .ok table) output := by
  rw [runArguments_eq given]
  refine ⟨fun failure after failed isOfData => ?_, ?_, ?_, ?_⟩
  · cases perform_spares limits command tree failure after failed isOfData
    rw [run_eq, failed]
  · rintro input rfl
    rw [run_eq]
    have keeps : Keeps (Command.perform limits (.validateRows input)) :=
      (keeps_readTable input).bind fun _ => keeps_pure _
    have same := keeps tree
    cases went : FileAction.outcome (Command.perform limits (.validateRows input)) tree with
    | mk answer after =>
      rw [went] at same
      cases answer <;> exact same
  · rintro input column text output rfl
    have delivers : Delivers (Command.perform limits (.apply input column text output)) tree _ _ :=
      delivers_runApply limits input column text output tree
    exact delivers.run
  · rintro input name directory output rfl
    have delivers : Delivers (Command.perform limits (.importTable input name directory output))
      tree _ _ := delivers_runImport limits input name directory output tree
    exact delivers.run

/-- What arguments ask for can be decided. -/
theorem ofArguments_eq_ok {arguments : List String} {limits : Limits} {command : Command}
    (asked : (Invocation.ofArguments arguments).toOption.map
      (fun invocation => (invocation.limits, invocation.command)) = some (limits, command)) :
    Invocation.ofArguments arguments = .ok ⟨limits, command⟩ := by
  cases given : Invocation.ofArguments arguments with
  | error stop =>
    rw [given] at asked
    cases asked
  | ok invocation =>
    rw [given] at asked
    cases asked
    rfl

/-- A formula that is not accepted; the output would replace the input. -/
theorem run_leaves_files_rejected :
    let arguments := ["apply", "in.csv", "--column", "a", "--formula", "(", "--output", "in.csv"]
    let tree : FileTree := ⟨[(["in.csv"], .file (encode "a\n1\n".toList))]⟩
    Invocation.ofArguments arguments
        = .ok ⟨{}, .apply ⟨"in.csv"⟩ "a" "(" (some ⟨"in.csv"⟩)⟩ ∧
      ∃ failure, (runArguments arguments : StateM FileTree Report).run tree
        = (Command.failed failure, tree) := by
  intro arguments tree
  have given : Invocation.ofArguments arguments
      = .ok ⟨{}, .apply ⟨"in.csv"⟩ "a" "(" (some ⟨"in.csv"⟩)⟩ :=
    ofArguments_eq_ok (by decide +kernel)
  refine ⟨given, ?_⟩
  cases accepted : Formula.accept "(" {} with
  | ok formula =>
    have isError : (Formula.accept "(" {}).isOk = false := by decide +kernel
    rw [accepted] at isError
    cases isError
  | error error =>
    refine ⟨.formula error, (run_leaves_files given tree).1 (.formula error) tree ?_ trivial⟩
    refine outcome_bind_error ?_ _
    show (Except.mapError Failure.formula _, tree) = _
    rw [accepted]
    rfl

end ColumnCalc
