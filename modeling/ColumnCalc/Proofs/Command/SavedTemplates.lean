/-
**A template that was saved is never rejected.**

Saving a template accepts each of its formulas under the limits of that run, and writes their texts
as they are. The text of the file is read back as the same template, so an import accepts the same
texts; limits that are no narrower accept them again, since a text is parsed to the same tree under
all limits that admit it.

* `Formula.accept_within` — wider limits accept what narrower ones accept.
* `Command.formulas_of_arguments` — the formulas of a command line are its pairs, trimmed.
* `Command.of_saved` — what a run that saves has accepted and written.
* `saved_template_applies` — what a later run that imports does.
-/

import ColumnCalc.Proofs.Command.Effects
import ColumnCalc.Proofs.Template.Application
import ColumnCalc.Proofs.Formula.Sandbox
import ColumnCalc.Proofs.Formula.Thresholds

namespace ColumnCalc

open Text.Utf8 (encode)

/-! ### Wider limits -/

/-- **Limits that admit whatever others admit.** -/
structure Limits.Within (limits wider : Limits) : Prop where
  nodes : limits.maxNodes ≤ wider.maxNodes
  depth : limits.maxDepth ≤ wider.maxDepth

variable {limits wider : Limits}

/-- The check has nothing against a tree that is small enough and calls what it may. -/
theorem check_of_small {tree : Expr} (few : tree.nodeCount ≤ limits.maxNodes)
    (isPermitted : tree.forbiddenCall? = none) : tree.check limits = .ok () := by
  unfold Expr.check
  rw [if_neg (Nat.not_lt.2 few), isPermitted]

/-- **A formula that is accepted is accepted under wider limits**, as the same tree. -/
theorem Formula.accept_within (within : limits.Within wider) {text : String} {formula : Formula}
    (accepted : accept text limits = .ok formula) : accept text wider = .ok formula := by
  obtain ⟨tree, parsed, went⟩ := bind_eq_ok.1 accepted
  obtain ⟨_, passes, same⟩ := bind_eq_ok.1 went
  cases same
  obtain ⟨read, few, shallow⟩ := Parser.parse_eq_ok_iff.1 parsed
  have isPermitted := (check_ok passes).2
  have enough := Nat.le_trans few within.nodes
  refine bind_eq_ok.2 ⟨tree, Parser.parse_eq_ok_iff.2 ⟨read, enough, ?_⟩,
    bind_eq_ok.2 ⟨(), check_of_small enough isPermitted, rfl⟩⟩
  exact Nat.le_trans shallow within.depth

namespace Command

/-! ### Pairs of a command line -/

/-- The column of a formula as it is given: what stands in front of the first equals sign. -/
def columnOf (text : String) : String :=
  String.ofList (Text.trim (text.toList.takeWhile (· ≠ '=')))

/-- The formula as it is given, which is trimmed: what follows the first equals sign. -/
def formulaOf (text : String) : String :=
  String.ofList (Text.trim ((text.toList.dropWhile (· ≠ '=')).drop 1))

/-- A pair that is taken is divided at its first equals sign. -/
theorem eq_of_pairOf {option text : String} {pair : String × String}
    (taken : pairOf option text = .ok pair) : pair = (columnOf text, formulaOf text) := by
  simp only [pairOf] at taken
  split at taken
  · rename_i behind _ _ isBehind isKey
    cases taken
    rw [columnOf, formulaOf, isBehind, isKey]
    rfl
  · cases taken

theorem eq_of_pairs {option : String} {texts : List String} {found : List (String × String)}
    (taken : texts.mapM (pairOf option) = .ok found) :
    found = texts.map fun text => (columnOf text, formulaOf text) := by
  induction texts generalizing found with
  | nil =>
    rw [List.mapM_nil] at taken
    cases taken
    rfl
  | cons text texts ih =>
    rw [List.mapM_cons] at taken
    obtain ⟨pair, isPair, went⟩ := bind_eq_ok.1 taken
    obtain ⟨others, areOthers, same⟩ := bind_eq_ok.1 went
    cases same
    rw [eq_of_pairOf isPair, ih areOthers]
    rfl

/-- The arguments behind a subcommand. -/
def Arguments.behind (given : Arguments) : List String :=
  (given.subcommand.map (·.2)).getD []

/-- The level of a command line that describes a template to be saved. -/
def saveLevel (arguments : List String) : Except Stop Arguments := do
  let program ← programUsage.take {} arguments
  let templates ← templateUsage.take {} program.behind
  (usageWith [] ["map", "formula"] 1).take {} templates.behind

/-- **The formulas that are given to be saved**, as they stand in the arguments. -/
def formulaTexts (arguments : List String) : List String :=
  match saveLevel arguments with
  | .ok given => given.values "formula"
  | .error _ => []

theorem leaf_eq_ok {usage : Usage} {arguments : List String}
    {build : Arguments → Except Stop Command} {command : Command} {levels : List Arguments}
    (made : leaf usage arguments build = .ok (command, levels)) :
    ∃ given, usage.take {} arguments = .ok given ∧ build given = .ok command := by
  obtain ⟨given, taken, went⟩ := bind_eq_ok.1 made
  obtain ⟨built, isBuilt, same⟩ := bind_eq_ok.1 went
  cases same
  exact ⟨given, taken, isBuilt⟩

section Save

variable {directory : Path} {name : String} {mapping formulas : List (String × String)}
  {levels : List Arguments}

/-- A template is saved by the commands on templates only. -/
theorem templates_of_subcommand {subcommand : String} {arguments : List String}
    (made : ofSubcommand subcommand arguments
      = .ok (.saveTemplate directory name mapping formulas, levels)) :
    ofTemplateArguments arguments = .ok (.saveTemplate directory name mapping formulas, levels) := by
  unfold ofSubcommand at made
  split at made
  -- The sixth command is the one on templates, and behind the eighth there is none.
  case h_6 => exact made
  case h_9 => cases made
  all_goals
    obtain ⟨given, _, built⟩ := leaf_eq_ok made
    repeat obtain ⟨_, _, built⟩ := bind_eq_ok.1 built
    cases built

/-- The formulas of a template that is saved stand on the last level of the command line. -/
theorem level_of_templates {arguments : List String}
    (made : ofTemplateArguments arguments
      = .ok (.saveTemplate directory name mapping formulas, levels)) :
    ∃ templates given, templateUsage.take {} arguments = .ok templates ∧
      (usageWith [] ["map", "formula"] 1).take {} templates.behind = .ok given ∧
      pairs given "formula" = .ok formulas := by
  obtain ⟨templates, taken, went⟩ := bind_eq_ok.1 made
  obtain ⟨place, _, further⟩ := bind_eq_ok.1 went
  dsimp only at further
  split at further <;> obtain ⟨⟨command, inner⟩, isLeaf, same⟩ := bind_eq_ok.1 further <;> cases same
  · rename_i rest isSave
    obtain ⟨given, isGiven, built⟩ := leaf_eq_ok isLeaf
    obtain ⟨_, _, built⟩ := bind_eq_ok.1 built
    obtain ⟨_, _, built⟩ := bind_eq_ok.1 built
    obtain ⟨found, areFormulas, built⟩ := bind_eq_ok.1 built
    cases built
    refine ⟨templates, given, taken, ?_, areFormulas⟩
    rw [Arguments.behind, isSave]
    exact isGiven
  · obtain ⟨_, _, built⟩ := leaf_eq_ok isLeaf
    cases built
  · obtain ⟨_, _, built⟩ := leaf_eq_ok isLeaf
    obtain ⟨_, _, built⟩ := bind_eq_ok.1 built
    cases built
  · cases isLeaf

/-- **What is saved are the given pairs**, in order. -/
theorem formulas_of_arguments {arguments : List String}
    (given : Invocation.ofArguments arguments
      = .ok ⟨limits, .saveTemplate directory name mapping formulas⟩) :
    formulas = (formulaTexts arguments).map fun text => (columnOf text, formulaOf text) := by
  obtain ⟨program, isProgram, went⟩ := bind_eq_ok.1 given
  cases isSubcommand : program.subcommand with
  | none =>
    rw [isSubcommand] at went
    cases went
  | some subcommand =>
    obtain ⟨subcommand, rest⟩ := subcommand
    rw [isSubcommand] at went
    obtain ⟨⟨command, levels⟩, made, further⟩ := bind_eq_ok.1 went
    obtain ⟨stated, _, same⟩ := bind_eq_ok.1 further
    cases same
    obtain ⟨templates, last, isTemplates, isLast, areFormulas⟩ :=
      level_of_templates (templates_of_subcommand made)
    have behind : program.behind = rest := by rw [Arguments.behind, isSubcommand]; rfl
    have isLevel : saveLevel arguments = .ok last :=
      bind_eq_ok.2 ⟨program, isProgram, bind_eq_ok.2 ⟨templates, behind ▸ isTemplates, isLast⟩⟩
    rw [eq_of_pairs areFormulas, formulaTexts, isLevel]

/-! ### Saving -/

/-- Every formula that is given is accepted. -/
theorem accepts_of_acceptAll {formulas : List (String × String)}
    (accepted : acceptAll limits formulas = .ok ()) {column text : String}
    (member : (column, text) ∈ formulas) :
    ∃ formula, Formula.accept text limits = .ok formula := by
  induction formulas with
  | nil => cases member
  | cons first rest ih =>
    rw [acceptAll] at accepted
    cases isAccepted : Formula.accept first.2 limits with
    | error error =>
      rw [isAccepted] at accepted
      cases accepted
    | ok formula =>
      rw [isAccepted] at accepted
      rcases List.mem_cons.1 member with same | later
      · cases same
        exact ⟨formula, isAccepted⟩
      · exact ih accepted later

/-- **A run that saves a template** has accepted its formulas, and the file holds its text. -/
theorem of_saved {tree after : FileTree} {report : Report}
    (saved : ((saveTemplate directory name mapping formulas).run limits
      : StateM FileTree Report).run tree = (report, after))
    (isFine : report.status = 0) :
    acceptAll limits formulas = .ok () ∧ ¬TemplateStore.Improper name ∧
      after.contentOf (directory.child (TemplateStore.fileName name))
        = .ok (encode (templateOf name mapping formulas).print) := by
  rw [run_eq] at saved
  split at saved
  · rename_i went
    cases saved
    rw [perform, runSave_eq] at went
    obtain ⟨⟨⟩, left, checked, stored⟩ := FileAction.outcome_bind_eq_ok.1 went
    obtain ⟨accepted, rfl⟩ := Prod.mk.inj
      (checked : ((acceptAll limits formulas).mapError id, tree) = (.ok (), left))
    rw [outcome_keep] at stored
    split at stored
    · rename_i saves
      cases stored
      obtain ⟨proper, rfl, content⟩ := TemplateStore.run_save_eq_ok saves
      exact ⟨mapError_eq_ok.1 accepted, proper, content⟩
    · cases stored
  · cases saved
    cases isFine

end Save

/-- The formulas of a template are those given last for their columns. -/
theorem get?_templateOf (name : String) (mapping formulas : List (String × String))
    (column : String) : (templateOf name mapping formulas).formulas.get? column
      = formulas.reverse.lookup column :=
  Dictionary.get?_ofList formulas column

/-- Each formula of a template is one that was given. -/
theorem mem_of_get?_templateOf {name column text : String}
    {mapping formulas : List (String × String)}
    (found : (templateOf name mapping formulas).formulas.get? column = some text) :
    (column, text) ∈ formulas := by
  rw [get?_templateOf, List.lookup_eq_some_iff] at found
  obtain ⟨later, earlier, same, _⟩ := found
  rw [← List.mem_reverse, same]
  simp

end Command

/-! ### Importing -/

open Command (templateOf formulaTexts columnOf formulaOf)

/-- An import whose template applies to every table fails over the table or the output only. -/
theorem failure_of_runImport {input directory : Path} {name : String} {output : Option Path}
    {tree after : FileTree} {template : Template} {failure : Failure}
    (loads : (TemplateStore.load ⟨directory⟩ name : StateM FileTree _).run tree
      = (.ok template, tree))
    (applies : ∀ table, ∃ applied, template.apply table limits = .ok applied)
    (failed : FileAction.outcome (Command.runImport limits input name directory output) tree
      = (.error failure, after)) :
    (∃ error, failure = .table input error) ∨ ∃ path, failure = .unwritable path := by
  unfold Command.runImport at failed
  rw [FileAction.outcome_bind_ok (FileAction.outcome_liftM _ tree), loads] at failed
  have kept : FileAction.outcome (Command.orFail Failure.template (.ok template)) tree
      = (.ok template, tree) := rfl
  rw [FileAction.outcome_bind_ok kept] at failed
  cases read : tableIn tree input with
  | error cause =>
    have reads := outcome_readTable input tree
    rw [read] at reads
    rw [FileAction.outcome_bind_error reads] at failed
    cases failed
    exact .inl (tableIn_eq_error read)
  | ok table =>
    have reads := outcome_readTable input tree
    rw [read] at reads
    obtain ⟨applied, isApplied⟩ := applies table
    have accepted : FileAction.outcome (Command.orFail Failure.formula (template.apply table limits))
        tree = (.ok applied, tree) := by
      rw [isApplied]
      rfl
    rw [FileAction.outcome_bind_ok reads, FileAction.outcome_bind_ok accepted] at failed
    exact .inr (written_eq_error ((outcome_writeTable ..).symm.trans failed)).2

/-- **A template accepted when it is saved is never rejected when it is imported.** Let a run save a
template, whatever its mapping and its formulas, and let a later run import it, under limits that
are no narrower, while its file is still as it was. Then the template is loaded; its formulas are
the texts given to be saved, trimmed, for each column the one given last; each is accepted as the
tree that it was when it was saved; the template is applied to whatever table there is; and the run
that imports fails only if the table cannot be read or the output cannot be written to. -/
theorem saved_template_applies {saving importing : List String} {wider : Limits}
    {directory source input : Path} {name : String} {mapping formulas : List (String × String)}
    {output : Option Path} {tree after later : FileTree} {report : Report}
    (saves : Invocation.ofArguments saving
      = .ok ⟨limits, .saveTemplate directory name mapping formulas⟩)
    (saved : (runArguments saving : StateM FileTree Report).run tree = (report, after))
    (isFine : report.status = 0)
    (imports : Invocation.ofArguments importing
      = .ok ⟨wider, .importTable input name source output⟩)
    (within : limits.Within wider)
    (unchanged : later.contentOf (source.child (TemplateStore.fileName name))
      = after.contentOf (directory.child (TemplateStore.fileName name))) :
    ∃ template,
      (TemplateStore.load ⟨source⟩ name : StateM FileTree _).run later = (.ok template, later) ∧
      (∀ column, template.formulas.get? column = ((formulaTexts saving).map fun text =>
        (columnOf text, formulaOf text)).reverse.lookup column) ∧
      (∀ column text, template.formulas.get? column = some text → ∃ formula,
        Formula.accept text limits = .ok formula ∧ Formula.accept text wider = .ok formula) ∧
      (∀ table, ∃ applied, template.apply table wider = .ok applied) ∧
      WritesOnly ((runArguments importing : StateM FileTree Report).run later) later
        (∃ table, tableIn later input = .ok table) output ∧
      ∀ failure left, FileAction.outcome
          (Command.perform wider (.importTable input name source output)) later
          = (.error failure, left) →
        (∃ error, failure = .table input error) ∨ ∃ path, failure = .unwritable path := by
  rw [runArguments_eq saves] at saved
  obtain ⟨accepted, proper, content⟩ := Command.of_saved saved isFine
  have loads : (TemplateStore.load ⟨source⟩ name : StateM FileTree _).run later
      = (.ok (templateOf name mapping formulas), later) := by
    simp only [TemplateStore.run_load proper, unchanged.trans content,
      TemplateStore.ofContent_print]
  have stays : ∀ column text,
      (templateOf name mapping formulas).formulas.get? column = some text → ∃ formula,
        Formula.accept text limits = .ok formula ∧ Formula.accept text wider = .ok formula := by
    intro column text found
    obtain ⟨formula, isAccepted⟩ :=
      Command.accepts_of_acceptAll accepted (Command.mem_of_get?_templateOf found)
    exact ⟨formula, isAccepted, Formula.accept_within within isAccepted⟩
  have applies := (templateOf name mapping formulas).exists_apply fun column text found =>
    (stays column text found).imp fun _ => And.right
  refine ⟨templateOf name mapping formulas, loads, fun column => ?_, stays, applies, ?_,
    fun failure left => failure_of_runImport loads applies⟩
  · rw [Command.get?_templateOf, Command.formulas_of_arguments saves]
  · have delivers : Delivers (Command.perform wider (.importTable input name source output)) later
        _ output := delivers_runImport wider input name source output later
    rw [runArguments_eq imports]
    refine ⟨delivers.run.succeeds_iff.trans (and_congr_left fun _ => ?_), delivers.run.changes⟩
    have isLoaded := congrArg Prod.fst loads
    exact ⟨And.right, fun read =>
      ⟨⟨_, isLoaded, (exists_apply_iff _ ⟨[], []⟩ wider).1 (applies _)⟩, read⟩⟩

/-- A column that is given twice; the import has room for more nodes. -/
theorem saved_template_applies_repeated :
    let saving := ["template", "save", "t", "--formula", " a = cost * 2", "--formula=a= cost + 1"]
    let importing := ["--max-nodes", "300", "import", "in.csv", "--template", "t"]
    let run := (runArguments saving : StateM FileTree Report).run .empty
    Invocation.ofArguments saving = .ok ⟨{}, .saveTemplate ⟨"templates"⟩ "t" []
        [("a", "cost * 2"), ("a", "cost + 1")]⟩ ∧
      Invocation.ofArguments importing
        = .ok ⟨⟨300, 64⟩, .importTable ⟨"in.csv"⟩ "t" ⟨"templates"⟩ none⟩ ∧ run.1.status = 0 ∧
      ∃ template, (TemplateStore.load ⟨⟨"templates"⟩⟩ "t" : StateM FileTree _).run run.2
          = (.ok template, run.2) ∧
        template.formulas.get? "a" = some "cost + 1" ∧
        ∀ table, ∃ applied, template.apply table ⟨300, 64⟩ = .ok applied := by
  intro saving importing run
  have saves : Invocation.ofArguments saving
      = .ok ⟨{}, .saveTemplate ⟨"templates"⟩ "t" [] [("a", "cost * 2"), ("a", "cost + 1")]⟩ :=
    ofArguments_eq_ok (by decide +kernel)
  have imports : Invocation.ofArguments importing
      = .ok ⟨⟨300, 64⟩, .importTable ⟨"in.csv"⟩ "t" ⟨"templates"⟩ none⟩ :=
    ofArguments_eq_ok (by decide +kernel)
  have isFine : run.1.status = 0 := by decide +kernel
  have within : Limits.Within {} ⟨300, 64⟩ := ⟨by decide, by decide⟩
  obtain ⟨template, loads, given, _, applies, _⟩ :=
    saved_template_applies saves (rfl : run = (run.1, run.2)) isFine imports within rfl
  refine ⟨saves, imports, isFine, template, loads, ?_, applies⟩
  rw [given]
  decide +kernel

end ColumnCalc
