/-
**The names that a store lists, and which of them it gives back.**

A store lists the names of all files of its directory that end in `.json`, without that ending, whoever
put them there. Such a file is always found again under its name (`contentOf_child_ne_missing`), but the
name itself need not be one that a store takes: a directory can hold files `.json`, `..json` and
`...json`, and names with a backslash. These are the only ones (`improper_iff_stray`).

* `Lists` — what a file system guarantees of the entries of a directory.
* `run_load_invalid_iff`, `run_load_ne_notFound` — when a name is refused, and when it is found.
* `listed_names_load_iff` — what is listed, and what loading it answers.
-/

import ColumnCalc.Proofs.Template.Store
import Mathlib.Data.List.Nodup

namespace ColumnCalc

open Text.Utf8 (encode)
open FileTree (IsName)

namespace FileTree

/-! ### Directories -/

/-- **A directory is at a place**, and as file systems guarantee, each of its entries has a name that
can stand there, and no two have the same one. -/
structure Lists (tree : FileTree) (place : Place) : Prop where
  isDirectory : tree.find? place = some .directory
  named : ∀ name ∈ tree.children place, IsName name
  distinct : (tree.children place).Nodup

variable {tree : FileTree} {place : Place}

/-- A path that is too long is refused. -/
theorem contentOf_of_long {path : Path} (long : pathBound < path.text.utf8ByteSize) :
    tree.contentOf path = .error .refused := by
  have refused : namesFrom path = .error .refused := by
    unfold namesFrom
    rw [if_pos (by simp [long])]
  unfold contentOf FileTree.place
  rw [refused]
  rfl

/-- **What is listed is not missing**, though it may be a directory or have too long a path. -/
theorem contentOf_child_ne_missing {path : Path} (leads : tree.place path = .ok place)
    (lists : Lists tree place) {name : String} (listed : name ∈ tree.children place) :
    tree.contentOf (path.child name) ≠ .error .missing := by
  by_cases short : (path.child name).text.utf8ByteSize ≤ pathBound
  · have reached := place_child leads lists.isDirectory (lists.named name listed) short
    obtain ⟨entry, there⟩ := Option.isSome_iff_exists.1 (mem_children_iff.1 listed)
    rw [contentOf_of_place reached, there]
    cases entry <;> exact nofun
  · rw [contentOf_of_long (Nat.lt_of_not_le short)]
    exact nofun

end FileTree

namespace TemplateStore

variable {store : TemplateStore} {tree : FileTree} {place : Place} {name : String}

/-! ### Names of files that are not names of templates -/

/-- **A name that no template is kept under, although a directory can hold a file of it.** -/
def Stray (name : String) : Prop :=
  name = "" ∨ name = "." ∨ name = ".." ∨ '\\' ∈ name.toList

instance (name : String) : Decidable (Stray name) :=
  inferInstanceAs (Decidable (_ ∨ _ ∨ _ ∨ _))

/-- **Of the names of files the stray ones are improper.** -/
theorem improper_iff_stray (isName : IsName (fileName name)) : Improper name ↔ Stray name := by
  have noSlash : '/' ∉ name.toList := fun member => isName.noSlash (by simp [fileName, member])
  have noNull : '\x00' ∉ name.toList := fun member => isName.noNull (by simp [fileName, member])
  simp only [Improper, Stray, noSlash, noNull, false_or, or_false]

/-! ### What loading answers -/

/-- A content that is no template is no reason to say that the template's name is wrong. -/
theorem ofContent_error {path : Path} {content : Text.Bytes} {error : TemplateError}
    (fails : ofContent path content = .error error) :
    error = .inaccessible path ∨ error = .malformed path := by
  unfold ofContent at fails
  split at fails
  · cases fails
    exact .inl rfl
  · split at fails
    · cases fails
      exact .inr rfl
    · cases fails

/-- **Improper names are refused**, and no others. -/
theorem run_load_invalid_iff {other : String} :
    ((store.load name : StateM FileTree _).run tree).1 = .error (.invalidName other)
      ↔ Improper name ∧ other = name := by
  by_cases improper : Improper name
  · rw [run_load_of_improper improper]
    exact ⟨fun | rfl => ⟨improper, rfl⟩, fun ⟨_, same⟩ => same ▸ rfl⟩
  · refine ⟨fun refused => ?_, fun ⟨isImproper, _⟩ => absurd isImproper improper⟩
    rw [run_load improper] at refused
    dsimp only at refused
    split at refused
    · cases refused
    · cases refused
    · rcases ofContent_error refused with same | same <;> cases same

/-- **A template whose file is not missing is found.** -/
theorem run_load_ne_notFound
    (there : tree.contentOf (store.directory.child (fileName name)) ≠ .error .missing)
    (other : String) :
    ((store.load name : StateM FileTree _).run tree).1 ≠ .error (.notFound other) := by
  intro missed
  by_cases improper : Improper name
  · rw [run_load_of_improper improper] at missed
    cases missed
  · rw [run_load improper] at missed
    dsimp only at missed
    split at missed
    · rename_i missing
      exact there missing
    · cases missed
    · rcases ofContent_error missed with same | same <;> cases same

/-- The names that are listed differ, as the files do. -/
theorem nodup_filterMap {files : List String} (distinct : files.Nodup) :
    (files.filterMap templateName?).Nodup := by
  refine distinct.filterMap ?_
  intro first second name isFirst isSecond
  rw [templateName_eq_some_iff.1 isFirst, templateName_eq_some_iff.1 isSecond]

/-- **Listed names are found, and all but the stray ones are accepted.** The names that a store lists
are those of the files in its directory that end in `.json`, each once and in the order of their
bytes. To load such a name never answers that there is no such template. It answers that the name is
invalid exactly if the name is stray, that is empty, a dot, two dots, or one with a backslash. -/
theorem listed_names_load_iff (leads : tree.place store.directory = .ok place)
    (lists : tree.Lists place) : ∃ names : List String,
      (store.list : StateM FileTree _).run tree = (.ok names, tree) ∧
      (names.Pairwise fun first second => encode first.toList < encode second.toList) ∧
      (∀ name, name ∈ names ↔ fileName name ∈ tree.children place) ∧
      ∀ name ∈ names,
        (∀ other, ((store.load name : StateM FileTree _).run tree).1 ≠ .error (.notFound other)) ∧
        (((store.load name : StateM FileTree _).run tree).1 = .error (.invalidName name)
          ↔ Stray name) ∧
        (isValidName name = true ↔ ¬Stray name) := by
  have listed (name : String) : name ∈ (tree.children place).filterMap templateName?
      ↔ fileName name ∈ tree.children place := by
    rw [mem_filterMap_children_iff, FileTree.mem_children_iff]
  refine ⟨((tree.children place).filterMap templateName?).mergeSort fun a b => a ≤ b, ?_,
    ascending_mergeSort (nodup_filterMap lists.distinct),
    fun name => by rw [List.mem_mergeSort, listed], fun name member => ?_⟩
  · simp only [run_list, FileTree.namesIn_of_place leads, lists.isDirectory]
  · have isFile := (listed name).1 (List.mem_mergeSort.1 member)
    have stray := improper_iff_stray (lists.named _ isFile)
    refine ⟨run_load_ne_notFound (FileTree.contentOf_child_ne_missing leads lists isFile), ?_, ?_⟩
    · rw [run_load_invalid_iff, stray, and_iff_left rfl]
    · rw [isValidName_iff, stray]

/-- A directory with a template, a file `.json`, a file of another kind and a directory `old.json`. -/
theorem listed_names_load_iff_mixed :
    let store : TemplateStore := ⟨⟨"templates"⟩⟩
    let tree : FileTree := ⟨[(["templates"], .directory), ([".json", "templates"], .file []),
      (["prices.json", "templates"], .file []), (["notes.txt", "templates"], .file []),
      (["old.json", "templates"], .directory)]⟩
    tree.place store.directory = .ok ["templates"] ∧ tree.Lists ["templates"] ∧
    ∃ names, (store.list : StateM FileTree _).run tree = (.ok names, tree) ∧
      "" ∈ names ∧ "prices" ∈ names ∧ "old" ∈ names ∧ "notes" ∉ names ∧
      ((store.load "" : StateM FileTree _).run tree).1 = .error (.invalidName "") ∧
      ((store.load "old" : StateM FileTree _).run tree).1 ≠ .error (.invalidName "old") := by
  intro store tree
  have leads : tree.place store.directory = .ok ["templates"] := by decide +kernel
  have children : tree.children ["templates"]
      = [".json", "prices.json", "notes.txt", "old.json"] := by decide +kernel
  have lists : tree.Lists ["templates"] := by
    refine ⟨by decide +kernel, ?_, by rw [children]; decide⟩
    rw [children]
    simp only [List.forall_mem_cons, List.not_mem_nil, false_imp_iff, implies_true, and_true]
    refine ⟨?_, ?_, ?_, ?_⟩ <;> constructor <;> decide
  obtain ⟨names, isList, _, listed, loads⟩ := listed_names_load_iff leads lists
  rw [children] at listed
  have empty : "" ∈ names := (listed "").2 (by decide)
  have old : "old" ∈ names := (listed "old").2 (by decide)
  exact ⟨leads, lists, names, isList, empty, (listed "prices").2 (by decide), old,
    fun member => absurd ((listed "notes").1 member) (by decide),
    (loads "" empty).2.1.2 (by decide), mt (loads "old" old).2.1.1 (by decide)⟩

/-- **A name is listed that cannot be loaded.** In a directory with nothing but a file `.json` the
empty name is listed, and to load it answers that it is invalid. -/
theorem empty_name_listed :
    let store : TemplateStore := ⟨⟨"templates"⟩⟩
    let tree : FileTree := ⟨[(["templates"], .directory), ([".json", "templates"], .file [])]⟩
    (store.list : StateM FileTree _).run tree = (.ok [""], tree) ∧
      (store.load "" : StateM FileTree _).run tree = (.error (.invalidName ""), tree) := by
  intro store tree
  have leads : tree.place store.directory = .ok ["templates"] := by decide +kernel
  have isDirectory : tree.find? ["templates"] = some .directory := by decide +kernel
  have children : tree.children ["templates"] = [".json"] := by decide +kernel
  have isName : templateName? ".json" = some "" := by decide +kernel
  constructor
  · simp [run_list, FileTree.namesIn_of_place leads, isDirectory, children, isName]
  · exact run_load_of_improper (.inl rfl)

end TemplateStore

end ColumnCalc
