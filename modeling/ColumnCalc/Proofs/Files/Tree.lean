/-
**Trees of files before and after a change.**

A path is followed step by step, and every step needs a directory to start from. So what is reached
by a path stays reachable as long as no directory goes away (`walk_mono`). A file that is written
takes the place of what was no directory, and making a directory adds directories only (`Grows`), at
places that its path leads through.

* `namesFrom_child` — the names of a path with one more name behind it.
* `walk_append`, `walk_mono` — following a path in parts, and in another tree.
* `mem_children_iff`, `children_put` — what is listed is what is there.
* `writeContent_eq_ok_iff`, `contentOf_writeContent` — a file that is written is read back.
* `place_makeDirectory`, `makeDirectory_of_place`, `grows_makeDirectory` — directories that are
  made.
-/

import ColumnCalc.Files.Tree
import ColumnCalc.Proofs.Failure

namespace ColumnCalc

open Text (Bytes)

namespace Path

/-! ### Names of a path -/

/-- There is always a first piece. -/
theorem pieces_ne_nil (text : List Char) : pieces text ≠ [] := by
  cases text with
  | nil => exact nofun
  | cons c rest =>
    rw [pieces]
    split
    · exact nofun
    · split <;> exact nofun

/-- A slash divides. -/
theorem pieces_slash (first second : List Char) :
    pieces (first ++ '/' :: second) = pieces first ++ pieces second := by
  induction first with
  | nil => rfl
  | cons c first ih =>
    rw [List.cons_append, pieces, pieces, ih]
    by_cases slash : c = '/'
    · rw [if_pos slash, if_pos slash, List.cons_append]
    · rw [if_neg slash, if_neg slash]
      cases isFirst : pieces first with
      | nil => exact absurd isFirst (pieces_ne_nil first)
      | cons piece more => rfl

theorem pieces_of_noSlash {name : List Char} (noSlash : '/' ∉ name) : pieces name = [name] := by
  induction name with
  | nil => rfl
  | cons c name ih =>
    have other : c ≠ '/' := fun same => noSlash (same ▸ .head _)
    rw [pieces, if_neg other, ih fun member => noSlash (.tail _ member)]

/-- The text of a path with one more name behind it. -/
theorem toList_child (path : Path) (name : String) (nonempty : path.text ≠ "") :
    (path.child name).text.toList =
      if path.text.toList.getLast? = some '/' then path.text.toList ++ name.toList
      else path.text.toList ++ '/' :: name.toList := by
  have noneEmpty : path.text.isEmpty = false := by simpa using nonempty
  have mark : "/".toList = ['/'] := by decide
  unfold child
  by_cases slash : path.text.toList.getLast? = some '/'
  · simp only [slash, decide_true, Bool.or_true, if_true, String.toList_append]
  · simp only [slash, noneEmpty, decide_false, Bool.or_self, Bool.false_eq_true, if_false,
      String.toList_append, mark, List.append_assoc, List.singleton_append]

theorem size_child_le (path : Path) (name : String) :
    (path.child name).text.utf8ByteSize
      ≤ path.text.utf8ByteSize + 1 + name.utf8ByteSize := by
  have mark : "/".utf8ByteSize = 1 := by decide
  unfold child
  split <;> simp only [String.utf8ByteSize_append, mark] <;> omega

/-- **The names of a path with one more name behind it.** A slash at the end of the path leaves an
empty name there, in whose place the new one stands. -/
theorem names_child (path : Path) {name : String} (nonempty : path.text ≠ "")
    (noSlash : '/' ∉ name.toList) :
    ∃ outer, (path.child name).names = outer ++ [name] ∧
      (path.names = outer ∨ path.names = outer ++ [""]) := by
  have isName : pieces name.toList = [name.toList] := pieces_of_noSlash noSlash
  unfold names
  rw [toList_child path name nonempty]
  split
  · rename_i slash
    obtain ⟨front, isFront⟩ := List.getLast?_eq_some_iff.1 slash
    refine ⟨(pieces front).map String.ofList, ?_, .inr ?_⟩
    · rw [isFront, List.append_assoc, List.singleton_append, pieces_slash, isName]
      simp
    · rw [isFront, pieces_slash]
      simp [pieces]
  · refine ⟨(pieces path.text.toList).map String.ofList, ?_, .inl rfl⟩
    rw [pieces_slash, isName]
    simp

end Path

namespace FileTree

/-! ### Paths -/

/-- **A name that can stand in a directory**, and means an entry of it. -/
structure IsName (name : String) : Prop where
  nonempty : name ≠ ""
  notHere : name ≠ "."
  notUp : name ≠ ".."
  noSlash : '/' ∉ name.toList
  noNull : '\x00' ∉ name.toList
  short : name.utf8ByteSize ≤ nameBound

theorem IsName.step_eq {name : String} (isName : IsName name) (place : Place) :
    step place name = .ok (name :: place) := by
  unfold step
  rw [if_neg (not_or.2 ⟨isName.nonempty, isName.notHere⟩), if_neg isName.notUp,
    if_neg (Nat.not_lt.2 isName.short)]

/-- A path has names from the working directory on. -/
theorem namesFrom_eq_ok_iff {path : Path} {names : List String} :
    namesFrom path = .ok names ↔
      ('\x00' ∉ path.text.toList ∧ path.text.utf8ByteSize ≤ pathBound) ∧
        (path.text ≠ "" ∧ path.text.toList.head? ≠ some '/') ∧ path.names = names := by
  unfold namesFrom
  split
  · rename_i refused
    refine ⟨nofun, fun ⟨⟨noNull, short⟩, _⟩ => ?_⟩
    simp only [Bool.or_eq_true, List.contains_iff_mem, decide_eq_true_eq] at refused
    exact (refused.elim noNull fun long => Nat.not_lt.2 short long).elim
  · rename_i allowed
    simp only [Bool.or_eq_true, List.contains_iff_mem, decide_eq_true_eq, not_or] at allowed
    split
    · rename_i elsewhere
      refine ⟨nofun, fun ⟨_, ⟨nonempty, relative⟩, _⟩ => ?_⟩
      simp only [Bool.or_eq_true, String.isEmpty_iff, decide_eq_true_eq] at elsewhere
      exact (elsewhere.elim nonempty relative).elim
    · rename_i below
      simp only [Bool.or_eq_true, String.isEmpty_iff, decide_eq_true_eq, not_or] at below
      constructor
      · rintro ⟨⟩
        exact ⟨⟨allowed.1, Nat.not_lt.1 allowed.2⟩, below, rfl⟩
      · rintro ⟨_, _, rfl⟩
        rfl

/-- A path with one more name behind it has names as well, unless it gets too long. -/
theorem namesFrom_child {path : Path} {names : List String} (read : namesFrom path = .ok names)
    {name : String} (isName : IsName name)
    (short : (path.child name).text.utf8ByteSize ≤ pathBound) :
    ∃ outer, namesFrom (path.child name) = .ok (outer ++ [name]) ∧
      (names = outer ∨ names = outer ++ [""]) := by
  obtain ⟨⟨noNull, _⟩, ⟨nonempty, relative⟩, rfl⟩ := namesFrom_eq_ok_iff.1 read
  obtain ⟨outer, isChild, isOuter⟩ := path.names_child nonempty isName.noSlash
  obtain ⟨first, rest, isText⟩ : ∃ first rest, path.text.toList = first :: rest :=
    List.exists_cons_of_ne_nil fun empty => nonempty (String.toList_eq_nil_iff.1 empty)
  have text := path.toList_child name nonempty
  refine ⟨outer, namesFrom_eq_ok_iff.2 ⟨⟨?_, short⟩, ⟨?_, ?_⟩, isChild⟩, isOuter⟩
  · rw [text]
    split <;> simp [noNull, isName.noNull]
  · intro empty
    rw [empty, isText] at text
    split at text <;> cases text
  · rw [text]
    rw [isText] at relative ⊢
    split <;> exact relative

/-! ### Following a path -/

variable {tree grown : FileTree} {place last : Place}

@[simp] theorem find?_root (tree : FileTree) : tree.find? [] = some .directory := if_pos rfl

/-- **One more name is followed** from a directory on. -/
theorem walk_cons_eq_ok_iff {name : String} {rest : List String} :
    tree.walk place (name :: rest) = .ok last ↔ tree.find? place = some .directory ∧
      ∃ next, step place name = .ok next ∧ tree.walk next rest = .ok last := by
  rw [walk]
  cases tree.find? place with
  | none => exact ⟨nofun, fun ⟨there, _⟩ => nomatch there⟩
  | some entry =>
    cases entry with
    | file content => exact ⟨nofun, fun ⟨there, _⟩ => nomatch there⟩
    | directory => exact bind_eq_ok.trans ⟨fun went => ⟨rfl, went⟩, And.right⟩

theorem walk_append (tree : FileTree) (place : Place) (first second : List String) :
    tree.walk place (first ++ second) = tree.walk place first >>= (tree.walk · second) := by
  induction first generalizing place with
  | nil => rfl
  | cons name first ih =>
    rw [List.cons_append, walk, walk]
    cases tree.find? place with
    | none => rfl
    | some entry =>
      cases entry with
      | file content => rfl
      | directory =>
        cases step place name with
        | error fault => rfl
        | ok next => exact ih next

/-- **What is reached stays reachable** as long as directories stay. -/
theorem walk_mono (kept : ∀ place, tree.find? place = some .directory →
    grown.find? place = some .directory) {names : List String}
    (reached : tree.walk place names = .ok last) : grown.walk place names = .ok last := by
  induction names generalizing place with
  | nil => exact reached
  | cons name rest ih =>
    obtain ⟨isDirectory, next, went, further⟩ := walk_cons_eq_ok_iff.1 reached
    exact walk_cons_eq_ok_iff.2 ⟨kept place isDirectory, next, went, ih further⟩

/-- A path leads where it led as long as directories stay. -/
theorem place_mono (kept : ∀ place, tree.find? place = some .directory →
    grown.find? place = some .directory) {path : Path} (reached : tree.place path = .ok last) :
    grown.place path = .ok last := by
  obtain ⟨names, read, went⟩ := bind_eq_ok.1 reached
  exact bind_eq_ok.2 ⟨names, read, walk_mono kept went⟩

/-- **An entry of a directory is reached by its name** behind the directory's path. -/
theorem place_child {path : Path} (leads : tree.place path = .ok place)
    (isDirectory : tree.find? place = some .directory) {name : String} (isName : IsName name)
    (short : (path.child name).text.utf8ByteSize ≤ pathBound) :
    tree.place (path.child name) = .ok (name :: place) := by
  obtain ⟨names, read, reached⟩ := bind_eq_ok.1 leads
  obtain ⟨outer, isChild, isOuter⟩ := namesFrom_child read isName short
  have outerReached : tree.walk [] outer = .ok place := by
    rcases isOuter with rfl | rfl
    · exact reached
    · -- The empty name at the end stays in its directory.
      rw [walk_append] at reached
      obtain ⟨there, went, stays⟩ := bind_eq_ok.1 reached
      obtain ⟨_, next, same, ends⟩ := walk_cons_eq_ok_iff.1 stays
      cases same
      cases ends
      exact went
  unfold FileTree.place
  rw [isChild]
  show tree.walk [] (outer ++ [name]) = _
  rw [walk_append, outerReached]
  exact walk_cons_eq_ok_iff.2 ⟨isDirectory, _, isName.step_eq place, rfl⟩

/-! ### What is listed -/

/-- The names within a place. -/
def children (tree : FileTree) (place : Place) : List String :=
  tree.entries.filterMap fun (inner, _) =>
    match inner with
    | name :: outer => if outer = place then some name else none
    | [] => none

/-- The name of a place within another one. -/
def childName? (place : Place) : Place → Option String
  | name :: outer => if outer = place then some name else none
  | [] => none

theorem children_eq (tree : FileTree) (place : Place) :
    tree.children place = (tree.entries.map (·.1)).filterMap (childName? place) := by
  rw [List.filterMap_map]
  refine congrArg (tree.entries.filterMap ·) (funext fun ⟨inner, _⟩ => ?_)
  cases inner <;> rfl

theorem childName_eq_some_iff {inner : Place} {name : String} :
    childName? place inner = some name ↔ inner = name :: place := by
  cases inner with
  | nil => exact ⟨nofun, nofun⟩
  | cons first outer =>
    simp only [childName?, List.cons.injEq]
    split
    · rename_i same
      simp [same]
    · rename_i different
      simp [different]

theorem isSome_lookup_iff {entries : List (Place × Entry)} :
    (entries.lookup place).isSome ↔ place ∈ entries.map (·.1) := by
  induction entries with
  | nil => simp
  | cons entry entries ih =>
    obtain ⟨key, value⟩ := entry
    by_cases same : place = key
    · simp [same]
    · have missed : (place == key) = false := by simpa using same
      simp [List.lookup_cons, missed, same, ih]

/-- **What is listed is what is there.** -/
theorem mem_children_iff {name : String} :
    name ∈ tree.children place ↔ (tree.find? (name :: place)).isSome := by
  rw [children_eq, List.mem_filterMap, find?, if_neg (List.cons_ne_nil _ _), isSome_lookup_iff]
  simp only [childName_eq_some_iff]
  constructor
  · rintro ⟨inner, member, rfl⟩
    exact member
  · exact fun member => ⟨_, member, rfl⟩

/-- The names within a directory that a path leads to. -/
theorem namesIn_of_place {path : Path} (leads : tree.place path = .ok place) :
    tree.namesIn path =
      match tree.find? place with
      | some .directory => .ok (tree.children place)
      | some (.file _) => .error .refused
      | none => .error .missing := by
  unfold namesIn
  rw [leads]
  rfl

theorem map_fst_putEntry (place : Place) (entry : Entry) (entries : List (Place × Entry)) :
    (putEntry place entry entries).map (·.1)
      = if place ∈ entries.map (·.1) then entries.map (·.1)
        else entries.map (·.1) ++ [place] := by
  induction entries with
  | nil => rfl
  | cons first rest ih =>
    rw [putEntry]
    by_cases same : first.1 = place
    · simp [same]
    · rw [if_neg same, List.map_cons, ih]
      by_cases later : place ∈ rest.map (·.1)
      · simp only [later, List.map_cons, List.mem_cons, or_true, if_true]
      · simp only [later, List.map_cons, List.mem_cons, Ne.symm same, or_self, if_false,
          List.cons_append]

/-- An entry that is new is listed behind the others; one that is there keeps its place. -/
theorem children_put (tree : FileTree) (place : Place) (name : String) (entry : Entry) :
    (tree.put (name :: place) entry).children place
      = if (tree.find? (name :: place)).isSome then tree.children place
        else tree.children place ++ [name] := by
  have listed : (tree.find? (name :: place)).isSome ↔ name :: place ∈ tree.entries.map (·.1) := by
    rw [find?, if_neg (List.cons_ne_nil _ _), isSome_lookup_iff]
  rw [children_eq, children_eq, put, map_fst_putEntry]
  split
  · rename_i there
    rw [if_pos (listed.2 there)]
  · rename_i new
    have named : childName? place (name :: place) = some name := childName_eq_some_iff.2 rfl
    rw [if_neg fun there => new (listed.1 there), List.filterMap_append]
    simp [named]

/-! ### Files that are written -/

variable {path : Path} {content : Bytes} {after : FileTree}

/-- **Writing a file changes one place**, which was no directory. -/
theorem writeContent_eq_ok_iff :
    tree.writeContent path content = .ok after ↔ ∃ place, tree.place path = .ok place ∧
      tree.find? place ≠ some .directory ∧ after = tree.put place (.file content) := by
  unfold writeContent
  refine bind_eq_ok.trans (exists_congr fun place => and_congr_right fun _ => ?_)
  split
  · rename_i directory
    exact ⟨nofun, fun ⟨other, _⟩ => absurd directory other⟩
  · rename_i other
    constructor
    · rintro ⟨⟩
      exact ⟨other, rfl⟩
    · rintro ⟨_, rfl⟩
      rfl

theorem ne_root_of_noDirectory (other : tree.find? place ≠ some .directory) : place ≠ [] :=
  fun root => other (root ▸ find?_root tree)

/-- A file in the place of no directory leaves all directories. -/
theorem find?_put_directory (other : tree.find? place ≠ some .directory) (entry : Entry)
    {directory : Place} (there : tree.find? directory = some .directory) :
    (tree.put place entry).find? directory = some .directory := by
  have different : directory ≠ place := fun same => other (same ▸ there)
  rw [find?_put tree directory entry (ne_root_of_noDirectory other), if_neg different, there]

/-- The content at a place that a path leads to. -/
theorem contentOf_of_place (reached : tree.place path = .ok place) :
    tree.contentOf path =
      match tree.find? place with
      | some (.file content) => .ok content
      | some .directory => .error .refused
      | none => .error .missing := by
  unfold contentOf
  rw [reached]
  rfl

/-- **What is written to a file is its content then.** -/
theorem contentOf_writeContent (written : tree.writeContent path content = .ok after) :
    after.contentOf path = .ok content := by
  obtain ⟨place, isPlace, other, rfl⟩ := writeContent_eq_ok_iff.1 written
  have still : (tree.put place (.file content)).place path = .ok place :=
    place_mono (fun _ => find?_put_directory other _) isPlace
  rw [contentOf_of_place still, find?_put tree place _ (ne_root_of_noDirectory other), if_pos rfl]

/-! ### Directories that are made -/

/-- The places that names lead through, the last one included. -/
def passed (place : Place) : List String → List Place
  | [] => []
  | name :: rest =>
    match step place name with
    | .ok next => next :: passed next rest
    | .error _ => []

/-- **Nothing but directories is new**, and they are at some of the given places. -/
def Grows (places : List Place) (tree grown : FileTree) : Prop :=
  ∀ place, grown.find? place = tree.find? place ∨
    place ∈ places ∧ tree.find? place = none ∧ grown.find? place = some .directory

namespace Grows

variable {places : List Place}

theorem refl (places : List Place) (tree : FileTree) : Grows places tree tree :=
  fun _ => .inl rfl

theorem keeps (grows : Grows places tree grown) {entry : Entry}
    (there : tree.find? place = some entry) : grown.find? place = some entry := by
  rcases grows place with same | ⟨_, new, _⟩
  · rw [same, there]
  · cases there.symm.trans new

/-- What is reached afterwards was reached before, or something was missing on the way. -/
theorem walk_before (grows : Grows places tree grown) {names : List String}
    (reached : grown.walk place names = .ok last) :
    tree.walk place names = .ok last ∨ tree.walk place names = .error .missing := by
  induction names generalizing place with
  | nil => exact .inl reached
  | cons name rest ih =>
    obtain ⟨isDirectory, next, went, further⟩ := walk_cons_eq_ok_iff.1 reached
    rcases grows place with same | ⟨_, new, _⟩
    · have here : tree.walk place (name :: rest) = tree.walk next rest := by
        rw [walk, ← same, isDirectory]
        show step place name >>= _ = _
        rw [went]
        rfl
      rw [here]
      exact ih further
    · exact .inr (by rw [walk, new])

/-- The same for a path. -/
theorem place_before (grows : Grows places tree grown) {path : Path}
    (reached : grown.place path = .ok last) :
    tree.place path = .ok last ∨ tree.place path = .error .missing := by
  obtain ⟨names, read, went⟩ := bind_eq_ok.1 reached
  unfold FileTree.place
  rw [read]
  exact grows.walk_before went

end Grows

section Make

variable {next : Place} {name : String} {rest : List String}

theorem passed_cons (went : step place name = .ok next) :
    passed place (name :: rest) = next :: passed next rest := by
  rw [passed, went]

/-- **One directory is made** unless it is there already. -/
theorem makeFrom_cons (went : step place name = .ok next) :
    tree.makeFrom place (name :: rest) =
      match tree.find? next with
      | some .directory => tree.makeFrom next rest
      | some (.file _) => (tree, .error .refused)
      | none => (tree.put next .directory).makeFrom next rest := by
  cases found : tree.find? next with
  | none => simp only [makeFrom, went, found]
  | some entry => cases entry <;> simp only [makeFrom, went, found]

theorem ne_root_of_none (nothing : tree.find? place = none) : place ≠ [] := by
  rintro rfl
  cases nothing.symm.trans (find?_root tree)

end Make

/-- **Making a directory adds directories only**, where its path leads through. -/
theorem grows_makeFrom (tree : FileTree) (place : Place) (names : List String) :
    Grows (passed place names) tree (tree.makeFrom place names).1 := by
  induction names generalizing tree place with
  | nil => exact .refl _ _
  | cons name rest ih =>
    cases went : step place name with
    | error fault =>
      rw [makeFrom, went]
      exact .refl _ _
    | ok next =>
      rw [makeFrom_cons went, passed_cons went]
      cases found : tree.find? next with
      | some entry =>
        cases entry with
        | file content => exact .refl _ _
        | directory =>
          intro other
          exact (ih tree next other).imp_right fun ⟨member, new⟩ => ⟨.tail _ member, new⟩
      | none =>
        intro other
        have further := ih (tree.put next .directory) next other
        rw [find?_put tree other .directory (ne_root_of_none found)] at further
        by_cases same : other = next
        · subst same
          rw [if_pos rfl] at further
          rcases further with made | ⟨_, impossible, _⟩
          · exact .inr ⟨.head _, found, made⟩
          · cases impossible
        · rw [if_neg same] at further
          exact further.imp_right fun ⟨member, new⟩ => ⟨.tail _ member, new⟩

/-- **A directory that is made is there.** -/
theorem makeFrom_ok {names : List String} {made : FileTree}
    (isDirectory : tree.find? place = some .directory)
    (makes : tree.makeFrom place names = (made, .ok ())) :
    ∃ last, made.walk place names = .ok last ∧ made.find? last = some .directory := by
  induction names generalizing tree place with
  | nil =>
    cases makes
    exact ⟨place, rfl, isDirectory⟩
  | cons name rest ih =>
    have kept : made.find? place = some .directory := by
      have grows := grows_makeFrom tree place (name :: rest)
      rw [makes] at grows
      exact grows.keeps isDirectory
    cases went : step place name with
    | error fault =>
      rw [makeFrom, went] at makes
      cases makes
    | ok next =>
      rw [makeFrom_cons went] at makes
      have further : ∃ last, made.walk next rest = .ok last ∧
          made.find? last = some .directory := by
        cases found : tree.find? next with
        | some entry =>
          rw [found] at makes
          cases entry with
          | file content => cases makes
          | directory => exact ih found makes
        | none =>
          rw [found] at makes
          refine ih ?_ makes
          rw [find?_put tree next .directory (ne_root_of_none found), if_pos rfl]
      obtain ⟨last, reached, isLast⟩ := further
      exact ⟨last, walk_cons_eq_ok_iff.2 ⟨kept, next, went, reached⟩, isLast⟩

/-- **A directory that is there is left as it is.** -/
theorem makeFrom_of_walk {names : List String} (reached : tree.walk place names = .ok last)
    (isDirectory : tree.find? last = some .directory) :
    tree.makeFrom place names = (tree, .ok ()) := by
  induction names generalizing place with
  | nil => rfl
  | cons name rest ih =>
    obtain ⟨_, next, went, further⟩ := walk_cons_eq_ok_iff.1 reached
    have there : tree.find? next = some .directory := by
      cases rest with
      | nil =>
        cases further
        exact isDirectory
      | cons other rest => exact (walk_cons_eq_ok_iff.1 further).1
    rw [makeFrom_cons went, there]
    exact ih further

section Directory

variable {path : Path}

/-- **Making a directory adds directories only**, where the names of its path lead. -/
theorem grows_makeDirectory (tree : FileTree) (path : Path) :
    Grows (passed [] path.names) tree (tree.makeDirectory path).1 := by
  unfold makeDirectory
  split
  · exact .refl _ _
  · split
    · exact .refl _ _
    · rename_i read
      obtain ⟨_, _, rfl⟩ := namesFrom_eq_ok_iff.1 read
      exact grows_makeFrom tree [] path.names

/-- **The path of a directory that is made leads to a directory.** -/
theorem place_makeDirectory (nonempty : path.text ≠ "")
    (makes : (tree.makeDirectory path).2 = .ok ()) :
    ∃ place, (tree.makeDirectory path).1.place path = .ok place ∧
      (tree.makeDirectory path).1.find? place = some .directory := by
  have isText : ¬path.text.isEmpty = true := by simpa using nonempty
  unfold makeDirectory at makes ⊢
  rw [if_neg isText] at makes ⊢
  cases read : namesFrom path with
  | error fault =>
    rw [read] at makes
    cases makes
  | ok names =>
    simp only [read] at makes ⊢
    obtain ⟨place, reached, isDirectory⟩ := makeFrom_ok (find?_root tree)
      (Prod.ext rfl makes : tree.makeFrom [] names = ((tree.makeFrom [] names).1, .ok ()))
    exact ⟨place, bind_eq_ok.2 ⟨names, read, reached⟩, isDirectory⟩

/-- A directory that a path leads to is there already. -/
theorem makeDirectory_of_place (leads : tree.place path = .ok place)
    (isDirectory : tree.find? place = some .directory) :
    tree.makeDirectory path = (tree, .ok ()) := by
  obtain ⟨names, read, reached⟩ := bind_eq_ok.1 leads
  unfold makeDirectory
  split
  · rfl
  · rw [read]
    exact makeFrom_of_walk reached isDirectory

end Directory

end FileTree

end ColumnCalc
