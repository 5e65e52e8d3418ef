/-
**A template store is a map from names to templates.**

Whatever calls a store has answered, it stands for the map in which every name holds the template
that was saved last under it (`lastSaved`). The invariant of a run, `Holds`, looks at the tree of
files as it is once the store's directory has been made: under the name of each template's file
there is the text of the template that the map holds, and nothing if it holds none. Before anything
is saved the directory may be missing, so what is found in the tree itself is compared with that.

* `isValidName_iff`, `templateName_eq_some_iff` — names of templates and names of their files.
* `Holds.load`, `Holds.list`, `Holds.save` — what each call answers, and what it writes.
* `holds_after` — the invariant after any calls.
* `store_acts_as_map` — all of it, for every run.
-/

import ColumnCalc.Proofs.Files.Tree
import ColumnCalc.Proofs.Template.Text

namespace ColumnCalc

open Text.Utf8 (encode)
open FileTree (IsName Grows passed)

namespace TemplateStore

/-! ### Names -/

/-- **Names that no template is kept under**: they say nothing, mean a directory or lead out of
one. -/
def Improper (name : String) : Prop :=
  name = "" ∨ name = "." ∨ name = ".." ∨
    '/' ∈ name.toList ∨ '\\' ∈ name.toList ∨ '\x00' ∈ name.toList

instance (name : String) : Decidable (Improper name) :=
  inferInstanceAs (Decidable (_ ∨ _ ∨ _ ∨ _ ∨ _ ∨ _))

theorem isValidName_iff {name : String} : isValidName name = true ↔ ¬Improper name := by
  simp only [isValidName, Improper, Bool.and_eq_true, List.all_eq_true, not_or, ne_eq, decide_not,
    Bool.not_eq_true', decide_eq_false_iff_not]
  constructor
  · rintro ⟨⟨⟨nonempty, notHere⟩, notUp⟩, plain⟩
    exact ⟨nonempty, notHere, notUp, fun member => (plain _ member).1.1 rfl,
      fun member => (plain _ member).1.2 rfl, fun member => (plain _ member).2 rfl⟩
  · rintro ⟨nonempty, notHere, notUp, noSlash, noBackslash, noNull⟩
    refine ⟨⟨⟨nonempty, notHere⟩, notUp⟩, fun c member => ⟨⟨?_, ?_⟩, ?_⟩⟩
    · exact fun same => noSlash (same ▸ member)
    · exact fun same => noBackslash (same ▸ member)
    · exact fun same => noNull (same ▸ member)

/-- The most bytes of a name whose file can be named. -/
def longestName : Nat := 250

/-- A template's name determines its file's and the other way round, even if it ends in `.json`
itself. -/
theorem templateName_eq_some_iff {file name : String} :
    templateName? file = some name ↔ file = fileName name := by
  constructor
  · intro isName
    simp only [templateName?] at isName
    split at isName
    · rename_i ends
      cases isName
      have parts := List.suffix_iff_eq_append.1 (List.isSuffixOf_iff_suffix.1 ends)
      rw [fileName, String.toList_ofList, parts, String.ofList_toList]
    · cases isName
  · rintro rfl
    exact templateName_fileName name

theorem fileName_inj {first second : String} (same : fileName first = fileName second) :
    first = second := by
  have found := templateName_fileName first
  rw [same, templateName_fileName] at found
  exact (Option.some.inj found).symm

theorem size_fileName (name : String) :
    (fileName name).utf8ByteSize = name.utf8ByteSize + 5 := by
  have ending : (String.ofList suffix).utf8ByteSize = 5 := by decide
  rw [fileName, String.ofList_append, String.ofList_toList, String.utf8ByteSize_append, ending]

/-- The file of a template has a name that stands for an entry of a directory. -/
theorem isName_fileName {name : String} (proper : ¬Improper name)
    (short : name.utf8ByteSize ≤ longestName) : IsName (fileName name) := by
  have noSlash : '/' ∉ name.toList := fun member => proper (by simp [Improper, member])
  have noNull : '\x00' ∉ name.toList := fun member => proper (by simp [Improper, member])
  have long : 5 ≤ (fileName name).utf8ByteSize := by rw [size_fileName]; omega
  have ending : '/' ∉ suffix ∧ '\x00' ∉ suffix := by decide
  refine ⟨?_, ?_, ?_, ?_, ?_, ?_⟩
  · exact fun same => absurd (same ▸ long) (by decide)
  · exact fun same => absurd (same ▸ long) (by decide)
  · exact fun same => absurd (same ▸ long) (by decide)
  · simp [fileName, noSlash, ending]
  · simp [fileName, noNull, ending]
  · rw [size_fileName]
    exact Nat.add_le_add_right short 5

theorem path_of_proper (store : TemplateStore) {name : String} (proper : ¬Improper name) :
    store.path name = .ok (store.directory.child (fileName name)) :=
  if_pos (isValidName_iff.2 proper)

theorem path_of_improper (store : TemplateStore) {name : String} (improper : Improper name) :
    store.path name = .error (.invalidName name) :=
  if_neg fun valid => isValidName_iff.1 valid improper

/-! ### Calls on a tree of files -/

variable {store : TemplateStore} {tree : FileTree}

theorem run_save_of_improper {template : Template} (improper : Improper template.name) :
    (store.save template : StateM FileTree _).run tree
      = (.error (.invalidName template.name), tree) := by
  unfold save
  rw [path_of_improper store improper]
  rfl

/-- **A template is saved** in two steps: the directory is made, then the file is written. -/
theorem run_save {template : Template} (proper : ¬Improper template.name) :
    (store.save template : StateM FileTree _).run tree =
      let path := store.directory.child (fileName template.name)
      match tree.makeDirectory store.directory with
      | (made, .error _) => (.error (.inaccessible store.directory), made)
      | (made, .ok ()) =>
        match made.writeContent path (encode template.print) with
        | .error _ => (.error (.inaccessible path), made)
        | .ok written => (.ok path, written) := by
  unfold save
  rw [path_of_proper store proper]
  simp only [FileAccess.makeDirectory, FileAccess.writeContent, bind_assoc, StateT.run_bind,
    StateT.run_get, pure_bind, StateT.run_set]
  cases tree.makeDirectory store.directory with
  | mk made result =>
    cases result with
    | error fault => rfl
    | ok =>
      simp only [StateT.run_bind, StateT.run_get, pure_bind]
      cases made.writeContent (store.directory.child (fileName template.name))
        (encode template.print) <;> rfl

/-- **A template that is saved** has a proper name, and its file holds its text. -/
theorem run_save_eq_ok {template : Template} {path : Path} {after : FileTree}
    (saves : (store.save template : StateM FileTree _).run tree = (.ok path, after)) :
    ¬Improper template.name ∧ path = store.directory.child (fileName template.name) ∧
      after.contentOf path = .ok (encode template.print) := by
  by_cases improper : Improper template.name
  · cases (run_save_of_improper improper).symm.trans saves
  · rw [run_save improper] at saves
    dsimp only at saves
    split at saves
    · cases saves
    · split at saves
      · cases saves
      · rename_i writes
        cases saves
        exact ⟨improper, rfl, FileTree.contentOf_writeContent writes⟩

theorem run_load_of_improper {name : String} (improper : Improper name) :
    (store.load name : StateM FileTree _).run tree = (.error (.invalidName name), tree) := by
  unfold load
  rw [path_of_improper store improper]
  rfl

/-- **A template is loaded** from the content of its file. -/
theorem run_load {name : String} (proper : ¬Improper name) :
    (store.load name : StateM FileTree _).run tree =
      let path := store.directory.child (fileName name)
      (match tree.contentOf path with
        | .error .missing => .error (.notFound name)
        | .error .refused => .error (.inaccessible path)
        | .ok content => ofContent path content, tree) := by
  unfold load
  rw [path_of_proper store proper]
  simp only [FileAccess.contentOf, StateT.run_bind, StateT.run_get, pure_bind, StateT.run_pure]
  cases tree.contentOf (store.directory.child (fileName name)) with
  | error fault => cases fault <;> rfl
  | ok content => rfl

/-- **The names of templates are listed** from the names in the directory. -/
theorem run_list (store : TemplateStore) (tree : FileTree) :
    (store.list : StateM FileTree _).run tree =
      (match tree.namesIn store.directory with
        | .error .missing => .ok []
        | .error .refused => .error (.inaccessible store.directory)
        | .ok names => .ok ((names.filterMap templateName?).mergeSort fun a b => a ≤ b), tree) := by
  unfold list
  simp only [FileAccess.namesIn, StateT.run_bind, StateT.run_get, pure_bind, StateT.run_pure]
  cases tree.namesIn store.directory with
  | error fault => cases fault <;> rfl
  | ok names => rfl

/-- Names that differ are sorted by their bytes. -/
theorem ascending_mergeSort {names : List String} (distinct : names.Nodup) :
    (names.mergeSort fun a b => a ≤ b).Pairwise fun first second =>
      encode first.toList < encode second.toList := by
  have isSorted : (names.mergeSort fun a b => a ≤ b).Pairwise (· ≤ ·) :=
    (@List.pairwise_mergeSort String (fun a b => a ≤ b)
      (fun a b c first second => decide_eq_true
        (String.le_trans (of_decide_eq_true first) (of_decide_eq_true second)))
      (fun a b => by simpa using String.le_total a b) names).imp of_decide_eq_true
  have isDistinct := (List.mergeSort_perm names fun a b => a ≤ b).nodup_iff.2 distinct
  refine isSorted.imp₂ (fun first second notGreater different => ?_) isDistinct
  have less : first < second := Decidable.byContradiction fun notLess =>
    different (String.le_antisymm notGreater (String.not_lt.1 notLess))
  exact Text.Utf8.encode_lt (String.lt_iff.1 less)

/-! ### Runs -/

/-- What can be asked of a store. -/
inductive Call where
  | save (template : Template)
  | load (name : String)
  | list

namespace Call

/-- The name in a call is short enough for the name of a file. -/
def Short : Call → Prop
  | save template => template.name.utf8ByteSize ≤ longestName
  | load name => name.utf8ByteSize ≤ longestName
  | list => True

/-- The tree of files behind a call. -/
def effect (store : TemplateStore) (tree : FileTree) : Call → FileTree
  | save template => ((store.save template : StateM FileTree _).run tree).2
  | load name => ((store.load name : StateM FileTree _).run tree).2
  | list => ((store.list : StateM FileTree _).run tree).2

/-- A map from names to templates behind a call. -/
def onMap (kept : String → Option Template) : Call → String → Option Template
  | save template => fun name =>
    if name = template.name ∧ ¬Improper template.name then some template else kept name
  | load _ => kept
  | list => kept

end Call

/-- The tree of files behind calls. -/
def after (store : TemplateStore) (tree : FileTree) (calls : List Call) : FileTree :=
  calls.foldl (Call.effect store) tree

/-- **The template that was saved last under a name.** -/
def lastSaved (calls : List Call) : String → Option Template :=
  calls.foldl Call.onMap fun _ => none

/-- The tree of files once the store's directory has been made. -/
def opened (store : TemplateStore) (tree : FileTree) : FileTree :=
  (tree.makeDirectory store.directory).1

/-- The tree of files with the file of a template in the store's directory. -/
def withFile (store : TemplateStore) (place : Place) (template : Template) (tree : FileTree) :
    FileTree :=
  (store.opened tree).put (fileName template.name :: place) (.file (encode template.print))

theorem find?_withFile (store : TemplateStore) (place : Place) (template : Template)
    (tree : FileTree) (other : Place) : (store.withFile place template tree).find? other
      = if other = fileName template.name :: place then some (.file (encode template.print))
        else (store.opened tree).find? other :=
  FileTree.find?_put _ other _ (List.cons_ne_nil _ _)

theorem grows_opened (store : TemplateStore) (tree : FileTree) :
    Grows (passed [] store.directory.names) tree (store.opened tree) :=
  FileTree.grows_makeDirectory tree store.directory

/-- **A store that nothing has been saved to**: its directory can be made if it is missing, and no
file of a template is in it. The longest path of a template's file can be written down. -/
structure Fresh (store : TemplateStore) (tree : FileTree) : Prop where
  /-- The empty path leads to no directory. -/
  named : store.directory.text ≠ ""
  roomy : store.directory.text.utf8ByteSize + 256 ≤ FileTree.pathBound
  makes : (tree.makeDirectory store.directory).2 = .ok ()
  holdsNone : ∀ place, (store.opened tree).place store.directory = .ok place →
    ∀ name, (store.opened tree).find? (fileName name :: place) = none

/-- **A tree of files stands for a map from names to templates.** -/
structure Holds (store : TemplateStore) (place : Place) (kept : String → Option Template)
    (tree : FileTree) : Prop where
  makes : (tree.makeDirectory store.directory).2 = .ok ()
  leads : (store.opened tree).place store.directory = .ok place
  isDirectory : (store.opened tree).find? place = some .directory
  /-- Each template is in its file. -/
  holds : ∀ name, (store.opened tree).find? (fileName name :: place)
    = (kept name).map fun template => .file (encode template.print)
  /-- No file is listed twice. -/
  distinct : (((store.opened tree).children place).filterMap templateName?).Nodup
  /-- The directory is only missing if nothing has been kept. -/
  isOpen : store.opened tree = tree ∨ ∀ name, kept name = none

variable {place : Place} {kept : String → Option Template}

/-- A directory without files of templates lists none. -/
theorem filterMap_children_eq_nil (nothing : ∀ name, tree.find? (fileName name :: place) = none) :
    (tree.children place).filterMap templateName? = [] := by
  rw [List.filterMap_eq_nil_iff]
  intro file isChild
  cases isName : templateName? file with
  | none => rfl
  | some name =>
    cases templateName_eq_some_iff.1 isName
    have there := FileTree.mem_children_iff.1 isChild
    rw [nothing name] at there
    cases there

/-- A template is listed if its file is there. -/
theorem mem_filterMap_children_iff {name : String} :
    name ∈ (tree.children place).filterMap templateName?
      ↔ (tree.find? (fileName name :: place)).isSome := by
  rw [← FileTree.mem_children_iff, List.mem_filterMap]
  simp only [templateName_eq_some_iff]
  exact ⟨fun ⟨file, isChild, same⟩ => same ▸ isChild, fun isChild => ⟨_, isChild, rfl⟩⟩

/-- A fresh store stands for the empty map. -/
theorem Fresh.holds (fresh : Fresh store tree) :
    ∃ place, Holds store place (fun _ => none) tree := by
  obtain ⟨place, leads, isDirectory⟩ := FileTree.place_makeDirectory fresh.named fresh.makes
  have nothing := fresh.holdsNone place leads
  refine ⟨place, fresh.makes, leads, isDirectory, nothing, ?_, .inr fun _ => rfl⟩
  rw [filterMap_children_eq_nil nothing]
  exact List.nodup_nil

namespace Holds

variable (holds : Holds store place kept tree)
  (roomy : store.directory.text.utf8ByteSize + 256 ≤ FileTree.pathBound)
include holds

/-- What is in a template's file is there before the directory is made. -/
theorem find?_fileName (name : String) : tree.find? (fileName name :: place)
    = (kept name).map fun template => .file (encode template.print) := by
  rcases grows_opened store tree (fileName name :: place) with same | ⟨_, _, directory⟩
  · rw [← same, holds.holds]
  · rw [holds.holds] at directory
    cases isKept : kept name <;> rw [isKept] at directory <;> cases directory

include roomy in
/-- The path of a template's file leads to it once the directory is made. -/
theorem place_child {name : String} (proper : ¬Improper name)
    (short : name.utf8ByteSize ≤ longestName) :
    (store.opened tree).place (store.directory.child (fileName name))
      = .ok (fileName name :: place) := by
  refine FileTree.place_child holds.leads holds.isDirectory (isName_fileName proper short) ?_
  refine Nat.le_trans (store.directory.size_child_le _) (Nat.le_trans ?_ roomy)
  rw [size_fileName]
  have bound : longestName = 250 := rfl
  omega

/-- If a path leads somewhere only once the directory is made, nothing is kept yet. -/
theorem eq_none_of_missing {path : Path} {last : Place}
    (leads : (store.opened tree).place path = .ok last)
    (missing : tree.place path = .error .missing) (name : String) : kept name = none := by
  rcases holds.isOpen with isOpen | nothing
  · rw [isOpen, missing] at leads
    cases leads
  · exact nothing name

include roomy in
/-- **What is kept under a name is given back**, and the files stay as they are. -/
theorem load {name : String} (proper : ¬Improper name)
    (short : name.utf8ByteSize ≤ longestName) :
    (store.load name : StateM FileTree _).run tree
      = ((kept name).elim (.error (.notFound name)) .ok, tree) := by
  have child := holds.place_child roomy proper short
  rw [run_load proper]
  rcases (grows_opened store tree).place_before child with leads | missing
  · have content := FileTree.contentOf_of_place leads
    rw [holds.find?_fileName name] at content
    cases isKept : kept name with
    | none =>
      rw [isKept] at content
      simp only [content, Option.map_none, Option.elim_none]
    | some template =>
      rw [isKept] at content
      simp only [content, Option.map_some, ofContent_print, Option.elim_some]
  · have content : tree.contentOf (store.directory.child (fileName name)) = .error .missing := by
      unfold FileTree.contentOf
      rw [missing]
      rfl
    simp only [content, holds.eq_none_of_missing child missing name, Option.elim_none]

/-- The names that are listed, as they stand in the directory. -/
theorem exists_names : ∃ names : List String,
    (store.list : StateM FileTree _).run tree = (.ok (names.mergeSort fun a b => a ≤ b), tree) ∧
      names.Nodup ∧ ∀ name, name ∈ names ↔ (kept name).isSome := by
  have nothing (missing : tree.namesIn store.directory = .error .missing)
      (isNone : ∀ name, kept name = none) : ∃ names : List String,
        (store.list : StateM FileTree _).run tree
          = (.ok (names.mergeSort fun a b => a ≤ b), tree) ∧
        names.Nodup ∧ ∀ name, name ∈ names ↔ (kept name).isSome := by
    refine ⟨[], ?_, List.nodup_nil, fun name => by simp [isNone name]⟩
    simp only [run_list, missing, List.mergeSort_nil]
  rcases (grows_opened store tree).place_before holds.leads with leads | missing
  · have names := FileTree.namesIn_of_place leads
    rcases grows_opened store tree place with same | ⟨_, new, _⟩
    · rw [← same, holds.isDirectory] at names
      refine ⟨(tree.children place).filterMap templateName?, by simp only [run_list, names], ?_,
        fun name => ?_⟩
      · rcases holds.isOpen with isOpen | isNone
        · exact isOpen ▸ holds.distinct
        · rw [filterMap_children_eq_nil fun name => by rw [holds.find?_fileName, isNone]; rfl]
          exact List.nodup_nil
      · rw [mem_filterMap_children_iff, holds.find?_fileName, Option.isSome_map]
    · rw [new] at names
      refine nothing names fun name => ?_
      rcases holds.isOpen with isOpen | isNone
      · rw [← isOpen, holds.isDirectory] at new
        cases new
      · exact isNone name
  · refine nothing ?_ (holds.eq_none_of_missing holds.leads missing)
    unfold FileTree.namesIn
    rw [missing]
    rfl

/-- **The names that something is kept under are listed**, each once, in the order of their
bytes. -/
theorem list : ∃ names : List String,
    (store.list : StateM FileTree _).run tree = (.ok names, tree) ∧
      (names.Pairwise fun first second => encode first.toList < encode second.toList) ∧
      ∀ name, name ∈ names ↔ (kept name).isSome := by
  obtain ⟨names, runs, distinct, isKept⟩ := holds.exists_names
  exact ⟨_, runs, ascending_mergeSort distinct, fun name => by rw [List.mem_mergeSort, isKept]⟩

/-- There is no directory in the place of a template's file. -/
theorem noDirectory (name : String) :
    (store.opened tree).find? (fileName name :: place) ≠ some .directory := by
  rw [holds.holds]
  cases kept name <;> nofun

/-- Directories stay when a template is written. -/
theorem directory_stays (template : Template) (directory : Place)
    (there : (store.opened tree).find? directory = some .directory) :
    (store.withFile place template tree).find? directory = some .directory :=
  FileTree.find?_put_directory (holds.noDirectory template.name) _ there

theorem leads_withFile (template : Template) :
    (store.withFile place template tree).place store.directory = .ok place :=
  FileTree.place_mono (holds.directory_stays template) holds.leads

theorem isDirectory_withFile (template : Template) :
    (store.withFile place template tree).find? place = some .directory :=
  holds.directory_stays template place holds.isDirectory

/-- Once a template is written, the directory is there. -/
theorem makeDirectory_withFile (template : Template) :
    (store.withFile place template tree).makeDirectory store.directory
      = (store.withFile place template tree, .ok ()) :=
  FileTree.makeDirectory_of_place (holds.leads_withFile template)
    (holds.isDirectory_withFile template)

/-- A template that is written is listed once. -/
theorem distinct_withFile (template : Template) :
    (((store.withFile place template tree).children place).filterMap templateName?).Nodup := by
  rw [withFile, FileTree.children_put]
  split
  · exact holds.distinct
  · rename_i new
    rw [List.filterMap_append, List.nodup_append]
    refine ⟨holds.distinct, by simp, fun name isListed other isNew => ?_⟩
    simp only [List.filterMap_cons, templateName_fileName, List.filterMap_nil,
      List.mem_singleton] at isNew
    rintro rfl
    exact new (isNew ▸ mem_filterMap_children_iff.1 isListed)

/-- **Once a template is written**, the tree of files stands for the map with the template under its
name. -/
theorem withFile {template : Template} (proper : ¬Improper template.name) :
    Holds store place ((Call.save template).onMap kept) (store.withFile place template tree) := by
  have remade := holds.makeDirectory_withFile template
  have isOpen : store.opened (store.withFile place template tree)
      = store.withFile place template tree := by rw [opened, remade]
  refine ⟨by rw [remade], isOpen.symm ▸ holds.leads_withFile template,
    isOpen.symm ▸ holds.isDirectory_withFile template, fun name => ?_,
    isOpen.symm ▸ holds.distinct_withFile template, .inl isOpen⟩
  rw [isOpen, find?_withFile]
  by_cases same : name = template.name
  · simp [same, Call.onMap, proper]
  · have otherFile : fileName name :: place ≠ fileName template.name :: place :=
      fun equal => same (fileName_inj (List.head_eq_of_cons_eq equal))
    simp only [if_neg otherFile, holds.holds, Call.onMap, same, false_and, if_false]

include roomy in
/-- **A template is written to its file and nowhere else**, once the directory is made. -/
theorem save {template : Template} (proper : ¬Improper template.name)
    (short : template.name.utf8ByteSize ≤ longestName) :
    (store.save template : StateM FileTree _).run tree
      = (.ok (store.directory.child (fileName template.name)),
        store.withFile place template tree) := by
  have makes : tree.makeDirectory store.directory = (store.opened tree, .ok ()) :=
    Prod.ext rfl holds.makes
  have writes : (store.opened tree).writeContent (store.directory.child (fileName template.name))
      (encode template.print) = .ok (store.withFile place template tree) :=
    FileTree.writeContent_eq_ok_iff.2
      ⟨_, holds.place_child roomy proper short, holds.noDirectory template.name, rfl⟩
  simp only [run_save proper, makes, writes]

end Holds

/-! ### What a store answers -/

/-- **The invariant holds behind every call.** -/
theorem Holds.effect (holds : Holds store place kept tree)
    (roomy : store.directory.text.utf8ByteSize + 256 ≤ FileTree.pathBound) {call : Call}
    (short : call.Short) : Holds store place (call.onMap kept) (call.effect store tree) := by
  cases call with
  | save template =>
    by_cases improper : Improper template.name
    · have same : (Call.save template).onMap kept = kept := by
        funext name
        simp [Call.onMap, improper]
      rw [same, Call.effect, run_save_of_improper improper]
      exact holds
    · rw [Call.effect, holds.save roomy improper short]
      exact holds.withFile improper
  | load name =>
    by_cases improper : Improper name
    · rw [Call.effect, run_load_of_improper improper]
      exact holds
    · rw [Call.effect, holds.load roomy improper short]
      exact holds
  | list =>
    obtain ⟨names, runs, _⟩ := holds.list
    rw [Call.effect, runs]
    exact holds

/-- **The invariant holds behind any calls.** -/
theorem holds_after (roomy : store.directory.text.utf8ByteSize + 256 ≤ FileTree.pathBound)
    (holds : Holds store place kept tree) {calls : List Call} (short : ∀ call ∈ calls, call.Short) :
    Holds store place (calls.foldl Call.onMap kept) (store.after tree calls) := by
  induction calls generalizing kept tree with
  | nil => exact holds
  | cons call calls ih =>
    exact ih (holds.effect roomy (short call (.head _))) fun other member =>
      short other (.tail _ member)

/-- A call stands in front of others, or it is one of them. -/
theorem exists_split_cons_iff {call first : Call} {rest : List Call} {holds : List Call → Prop} :
    (∃ before later, first :: rest = before ++ call :: later ∧ holds later) ↔
      first = call ∧ holds rest ∨ ∃ before later, rest = before ++ call :: later ∧ holds later := by
  constructor
  · rintro ⟨_ | ⟨_, before⟩, later, same, isLater⟩
    · cases same
      exact .inl ⟨rfl, isLater⟩
    · cases same
      exact .inr ⟨before, later, rfl, isLater⟩
  · rintro (⟨rfl, isLater⟩ | ⟨before, later, rfl, isLater⟩)
    · exact ⟨[], rest, rfl, isLater⟩
    · exact ⟨first :: before, later, rfl, isLater⟩

/-- What a map holds behind calls was saved by one of them with no later one under its name, or it
was held before. -/
theorem foldl_onMap_eq_some_iff {name : String} (proper : ¬Improper name) {calls : List Call}
    {template : Template} : calls.foldl Call.onMap kept name = some template ↔
      (∃ before later, calls = before ++ .save template :: later ∧ template.name = name ∧
        ∀ other, .save other ∈ later → other.name ≠ name) ∨
      kept name = some template ∧ ∀ other, .save other ∈ calls → other.name ≠ name := by
  induction calls generalizing kept with
  | nil => simp
  | cons call calls ih =>
    rw [List.foldl_cons, ih, exists_split_cons_iff]
    cases call with
    | load name => simp [Call.onMap]
    | list => simp [Call.onMap]
    | save saved =>
      by_cases same : saved.name = name
      · subst same
        grind [Call.onMap]
      · grind [Call.onMap]

/-- **The template saved last** is that of a call with no later one under its name. -/
theorem lastSaved_eq_some_iff {name : String} (proper : ¬Improper name) {calls : List Call}
    {template : Template} : lastSaved calls name = some template ↔
      ∃ before later, calls = before ++ .save template :: later ∧ template.name = name ∧
        ∀ other, .save other ∈ later → other.name ≠ name := by
  rw [lastSaved, foldl_onMap_eq_some_iff proper]
  simp

/-- **A store answers as a map from names to templates does**, and its directory is the only place
that it changes. -/
structure ActsAs (store : TemplateStore) (place : Place) (kept : String → Option Template)
    (tree : FileTree) : Prop where
  /-- An improper name is refused before anything is done. -/
  refuses : ∀ template, Improper template.name →
    (store.save template : StateM FileTree _).run tree
      = (.error (.invalidName template.name), tree)
  /-- Otherwise the template is written to the file of its name in the directory. All that may be
  new elsewhere are directories on the way there. -/
  saves : ∀ template, ¬Improper template.name → template.name.utf8ByteSize ≤ longestName →
    ∃ written : FileTree,
      (store.save template : StateM FileTree _).run tree
        = (.ok (store.directory.child (fileName template.name)), written) ∧
      written.place store.directory = .ok place ∧ written.find? place = some .directory ∧
      written.find? (fileName template.name :: place) = some (.file (encode template.print)) ∧
      (∀ other, other ≠ fileName template.name :: place →
        written.find? other = tree.find? other ∨ other ∈ passed [] store.directory.names ∧
          tree.find? other = none ∧ written.find? other = some .directory) ∧
      ∀ other, other ≠ template.name → other.utf8ByteSize ≤ longestName →
        ((store.load other : StateM FileTree _).run written).1
          = ((store.load other : StateM FileTree _).run tree).1
  /-- What was saved last under a name is given back. -/
  loads : ∀ name, name.utf8ByteSize ≤ longestName →
    (store.load name : StateM FileTree _).run tree
      = (if Improper name then .error (.invalidName name)
          else (kept name).elim (.error (.notFound name)) .ok, tree)
  /-- The names that something was saved under are listed, each once. -/
  lists : ∃ names : List String, (store.list : StateM FileTree _).run tree = (.ok names, tree) ∧
    (names.Pairwise fun first second => encode first.toList < encode second.toList) ∧
    ∀ name, name ∈ names ↔ (kept name).isSome

theorem Holds.loads (holds : Holds store place kept tree)
    (roomy : store.directory.text.utf8ByteSize + 256 ≤ FileTree.pathBound) {name : String}
    (short : name.utf8ByteSize ≤ longestName) :
    (store.load name : StateM FileTree _).run tree
      = (if Improper name then .error (.invalidName name)
          else (kept name).elim (.error (.notFound name)) .ok, tree) := by
  by_cases improper : Improper name
  · rw [run_load_of_improper improper, if_pos improper]
  · rw [holds.load roomy improper short, if_neg improper]

theorem Holds.actsAs (holds : Holds store place kept tree)
    (roomy : store.directory.text.utf8ByteSize + 256 ≤ FileTree.pathBound) :
    ActsAs store place kept tree := by
  refine ⟨fun template => run_save_of_improper, fun template proper short => ?_,
    fun name => holds.loads roomy, holds.list⟩
  refine ⟨store.withFile place template tree, holds.save roomy proper short,
    holds.leads_withFile template, holds.isDirectory_withFile template,
    by rw [find?_withFile, if_pos rfl], fun other different => ?_,
    fun other different isShort => ?_⟩
  · rw [find?_withFile, if_neg different]
    exact grows_opened store tree other
  · rw [(holds.withFile proper).loads roomy isShort, holds.loads roomy isShort]
    simp only [Call.onMap, different, false_and, if_false]

/-- **A template store behaves as a map from names to templates.** Its directory is missing at
first, or holds no template. After any calls whatsoever, a template is refused exactly if its name
is improper, and then nothing has changed; otherwise it is written to the file of its name, directly
in the directory, and nothing else is touched. A name gives back the template that was saved last
under it, field for field, or is not found if nothing was; saving under one name leaves alone what
the others give back; and the listed names are those that something was saved under, in ascending
order of their bytes. -/
theorem store_acts_as_map (fresh : Fresh store tree) :
    ∃ place, ∀ calls, (∀ call ∈ calls, Call.Short call) →
      ActsAs store place (lastSaved calls) (store.after tree calls) := by
  obtain ⟨place, holds⟩ := fresh.holds
  exact ⟨place, fun calls short => (holds_after fresh.roomy holds short).actsAs fresh.roomy⟩

/-- Two names of which one looks like the file of the other; the first is saved to twice. -/
theorem store_acts_as_map_twice :
    let store : TemplateStore := ⟨⟨"shop/templates"⟩⟩
    let first : Template := ⟨"a", .empty, .ofList [("price", "cost * 2")]⟩
    let second : Template := ⟨"a.json", .ofList [("misc", none)], .empty⟩
    let third : Template := ⟨"a", .ofList [("Name", some "title")], .empty⟩
    let calls : List Call := [.save first, .save second, .save third]
    Fresh store .empty ∧ (∀ call ∈ calls, call.Short) ∧
      ((store.load "a" : StateM FileTree _).run (store.after .empty calls)).1 = .ok third ∧
      ((store.load "a.json" : StateM FileTree _).run (store.after .empty calls)).1 = .ok second ∧
      ((store.load ".." : StateM FileTree _).run (store.after .empty calls)).1
        = .error (.invalidName "..") := by
  intro store first second third calls
  have fresh : Fresh store .empty := by
    have entries : (store.opened .empty).entries
        = [(["shop"], .directory), (["templates", "shop"], .directory)] := by decide +kernel
    have reached : ((store.opened .empty).place store.directory).toOption
        = some ["templates", "shop"] := by decide +kernel
    have made : (FileTree.empty.makeDirectory store.directory).2.isOk = true := by decide +kernel
    obtain ⟨⟨⟩, makes⟩ := exists_of_isOk made
    refine ⟨by decide, by decide +kernel, makes, fun place leads name => ?_⟩
    rw [leads] at reached
    cases reached
    simp [FileTree.find?, entries, List.lookup_cons]
  have short : ∀ call ∈ calls, call.Short := by
    simp only [calls, List.mem_cons, List.not_mem_nil, or_false, forall_eq_or_imp, forall_eq,
      Call.Short]
    decide
  have lastFirst : lastSaved calls "a" = some third := by decide +kernel
  have lastSecond : lastSaved calls "a.json" = some second := by decide +kernel
  obtain ⟨place, acts⟩ := store_acts_as_map fresh
  have loads := (acts calls short).loads
  refine ⟨fresh, short, ?_, ?_, ?_⟩
  · rw [loads "a" (by decide), if_neg (by decide), lastFirst]
    rfl
  · rw [loads "a.json" (by decide), if_neg (by decide), lastSecond]
    rfl
  · rw [loads ".." (by decide), if_pos (by decide)]

end TemplateStore

end ColumnCalc
