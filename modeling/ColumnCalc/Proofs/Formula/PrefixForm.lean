/-
**The prefix form can be read in one way only.**

A tree is written as a word, or in parentheses as a head with its arguments behind it, each behind a
space. Words and heads hold no space and no parenthesis, so a written tree ends where it has to:
whatever follows it, if it starts with a space or a closing parenthesis, two trees that are written
alike are the same, and so is what follows them. A head is an operator or a name, and the number of
arguments tells a sign from an operator.

* `toList_render` — how a tree is written.
* `split_words` — where a word ends.
* `legible_of_parse` — what is known of the words of a formula that is parsed.
* `Expr.readable` — a written tree ends where it has to, by induction over the tree.
* `prefix_form_unambiguous` — formulas that are printed alike are the same tree.
-/

import ColumnCalc.Proofs.Formula.Names
import ColumnCalc.Proofs.Formula.Places

namespace ColumnCalc

/-! ### How trees are written -/

/-- **What a tree is written as**: a word, or a head with arguments behind it. -/
inductive Written where
  | word (text : List Char)
  | group (head : List Char) (arguments : List Expr)

namespace Expr

def written : Expr → Written
  | literal value => .word (renderNumber value).toList
  | name text _ => .word text.toList
  | unary op operand => .group op.symbol.toList [operand]
  | binary op lhs rhs => .group op.symbol.toList [lhs, rhs]
  | call function _ arguments => .group function.toList arguments

/-- The text of several trees, each behind a space. -/
def spellAll (trees : List Expr) : List Char :=
  trees.flatMap fun tree => ' ' :: tree.render.toList

theorem toList_renderAll (trees : List Expr) : (renderAll trees).toList = spellAll trees := by
  induction trees with
  | nil => rfl
  | cons first rest ih =>
    rw [renderAll, spellAll, List.flatMap_cons, ← spellAll, ← ih]
    simp

theorem toList_render (tree : Expr) :
    tree.render.toList = match tree.written with
      | .word text => text
      | .group head arguments => '(' :: (head ++ (spellAll arguments ++ [')'])) := by
  cases tree with
  | literal value => rfl
  | name text span => rfl
  | unary op operand => simp [render, written, spellAll]
  | binary op lhs rhs => simp [render, written, spellAll]
  | call function span arguments => simp [render, written, toList_renderAll]

end Expr

/-! ### Words -/

/-- A character of a word: no space and no parenthesis. -/
def Solid (c : Char) : Prop :=
  c ≠ ' ' ∧ c ≠ '(' ∧ c ≠ ')'

instance : DecidablePred Solid := fun _ => inferInstanceAs (Decidable (_ ∧ _))

/-- What follows a word or a tree: nothing, a space or a closing parenthesis. -/
def Ends (rest : List Char) : Prop :=
  ∀ c ∈ rest.head?, c = ' ' ∨ c = ')'

theorem Ends.nil : Ends [] := nofun

theorem Ends.space (rest : List Char) : Ends (' ' :: rest) := fun c isFirst => by
  cases isFirst
  exact .inl rfl

theorem Ends.close (rest : List Char) : Ends (')' :: rest) := fun c isFirst => by
  cases isFirst
  exact .inr rfl

/-- No word starts where one ends. -/
theorem Ends.not_solid {c : Char} {rest : List Char} (ends : Ends (c :: rest)) : ¬Solid c := by
  rintro ⟨noSpace, -, noClose⟩
  rcases ends c rfl with isSpace | isClose
  · exact noSpace isSpace
  · exact noClose isClose

/-- **A word ends where it has to.** -/
theorem split_words {first second rest more : List Char} (isFirst : ∀ c ∈ first, Solid c)
    (isSecond : ∀ c ∈ second, Solid c) (ends : Ends rest) (alsoEnds : Ends more)
    (same : first ++ rest = second ++ more) : first = second ∧ rest = more := by
  induction first generalizing second with
  | nil =>
    cases second with
    | nil => exact ⟨rfl, same⟩
    | cons c second =>
      rw [List.nil_append] at same
      subst same
      exact absurd (isSecond c (.head _)) ends.not_solid
  | cons c first ih =>
    cases second with
    | nil =>
      rw [List.nil_append] at same
      subst same
      exact absurd (isFirst c (.head _)) alsoEnds.not_solid
    | cons d second =>
      obtain ⟨rfl, behind⟩ := List.cons_eq_cons.1 same
      obtain ⟨rfl, isRest⟩ := ih (fun e member => isFirst e (.tail _ member))
        (fun e member => isSecond e (.tail _ member)) behind
      exact ⟨rfl, isRest⟩

/-- Names are words. -/
theorem Scan.SpellsName.solid {text : List Char} (spells : Scan.SpellsName text) :
    ∀ c ∈ text, Solid c := by
  obtain ⟨first, more, rfl, isFirst, areMore⟩ := spells.characters
  have solid {c : Char} (continues : c = '_' ∨ Text.isAlphanumeric c = true) : Solid c := by
    refine ⟨?_, ?_, ?_⟩ <;> rintro rfl <;> revert continues <;> decide
  refine List.forall_mem_cons.2 ⟨solid (isFirst.imp_right fun isLetter => ?_), fun c member =>
    solid (areMore c member)⟩
  rw [Text.isAlphanumeric, isLetter, Bool.true_or]

/-- The text of a finite number: digits, a point and a sign. -/
theorem mem_renderNumber {value : Float} (isFinite : value.isFinite = true) {c : Char}
    (member : c ∈ (renderNumber value).toList) : c.isDigit = true ∨ c = '.' ∨ c = '-' := by
  obtain ⟨negative, rank, isValue⟩ := (Binary64.isFinite_iff value).1 isFinite
  obtain ⟨whole, fraction, shows⟩ := Shortest.isPositional_ofRank rank
  rw [toList_renderNumber isValue, List.mem_append] at member
  rcases member with inSign | inDigits
  · cases negative with
    | false => cases inSign
    | true => exact .inr (.inr (List.mem_singleton.1 inSign))
  · exact (shows.digit_or_point inDigits).imp_right .inl

/-- Finite numbers are words. -/
theorem solid_renderNumber {value : Float} (isFinite : value.isFinite = true) :
    ∀ c ∈ (renderNumber value).toList, Solid c := by
  intro c member
  have characters := mem_renderNumber isFinite member
  refine ⟨?_, ?_, ?_⟩ <;> rintro rfl <;> revert characters <;> decide

theorem not_isAlpha_of_isDigit {c : Char} (isDigit : c.isDigit = true) : c.isAlpha = false := by
  have above : c.val ≤ '9'.val := of_decide_eq_true (Bool.and_eq_true_iff.1 isDigit).2
  rw [Bool.eq_false_iff]
  intro isAlpha
  have least : 'A'.val ≤ c.val := by
    rcases Bool.or_eq_true_iff.1 isAlpha with upper | lower
    · exact (of_decide_eq_true upper).1
    · have behind : 'a'.val ≤ c.val := of_decide_eq_true (Bool.and_eq_true_iff.1 lower).1
      exact UInt32.le_trans (by decide) behind
  exact absurd (UInt32.le_trans least above) (by decide)

/-- **No name is the text of a number.** -/
theorem not_spellsName_renderNumber {value : Float} (isFinite : value.isFinite = true) :
    ¬Scan.SpellsName (renderNumber value).toList := by
  rintro ⟨⟨first, more, split, isFirst, -⟩, -⟩
  have characters := @mem_renderNumber value isFinite first (split ▸ .head _)
  rcases characters with isDigit | rfl | rfl
  · have ascii := Scan.ascii_of_isDigit isDigit
    rw [Text.isAlphabetic_of_ascii ascii] at isFirst
    rcases isFirst with rfl | isLetter
    · cases isDigit
    · rw [not_isAlpha_of_isDigit isDigit] at isLetter
      cases isLetter
  · revert isFirst
    decide
  · revert isFirst
    decide

/-- **Different finite numbers have different texts.** -/
theorem renderNumber_injective {first second : Float} (isFinite : first.isFinite = true)
    (alsoFinite : second.isFinite = true) (same : renderNumber first = renderNumber second) :
    first = second := by
  have read := readNumber_renderNumber isFinite
  rw [same, readNumber_renderNumber alsoFinite] at read
  exact (Option.some.inj read).symm

/-! ### Trees of formulas -/

/-- **A tree whose words can be told apart**: its literals are finite and its names are spelled as
names. -/
structure Legible (tree : Expr) : Prop where
  literal : ∀ value, .literal value ∈ tree.subtrees → value.isFinite = true
  name : ∀ label ∈ tree.labels, Scan.SpellsName label.1.toList

/-- **Formulas that are parsed have legible trees.** -/
theorem legible_of_parse {limits : Limits} {text : String} {tree : Expr}
    (parsed : parse limits text = .ok tree) : Legible tree where
  literal value member := by
    obtain ⟨tokens, areItems, derived⟩ := Parser.derives_of_parse parsed
    obtain ⟨token, inside, isNumber⟩ := literal_of_derives derived member
    have isItem : .ok token ∈ itemsOf text := areItems ▸ List.mem_map_of_mem inside
    exact (number_of_itemsOf isItem isNumber).1
  name label member := (label_of_parse parsed member).2.2

namespace Legible

/-- Trees in a legible tree are legible. -/
theorem of_subset {tree inner : Expr} (legible : Legible tree)
    (subset : ∀ node ∈ inner.subtrees, node ∈ tree.subtrees) : Legible inner where
  literal value member := legible.literal value (subset _ member)
  name label member := by
    obtain ⟨node, inside, isLabel⟩ := List.mem_filterMap.1 member
    exact legible.name label (List.mem_filterMap.2 ⟨node, subset node inside, isLabel⟩)

/-- The arguments of a legible tree are legible. -/
theorem argument {tree : Expr} (legible : Legible tree) {head : List Char} {arguments : List Expr}
    (isGroup : tree.written = .group head arguments) :
    ∀ argument ∈ arguments, Legible argument := by
  intro argument member
  refine legible.of_subset fun node inside => ?_
  cases tree with
  | literal value => cases isGroup
  | name text span => cases isGroup
  | unary op operand =>
    cases isGroup
    obtain rfl := List.mem_singleton.1 member
    exact .tail _ inside
  | binary op lhs rhs =>
    cases isGroup
    rcases List.mem_cons.1 member with rfl | later
    · exact .tail _ (List.mem_append_left _ inside)
    · obtain rfl := List.mem_singleton.1 later
      exact .tail _ (List.mem_append_right _ inside)
  | call function span arguments =>
    cases isGroup
    exact .tail _ (Expr.mem_subtreesOfAll.2 ⟨argument, member, inside⟩)

/-- A word of a legible tree is one. -/
theorem word {tree : Expr} (legible : Legible tree) {text : List Char}
    (isWord : tree.written = .word text) : ∀ c ∈ text, Solid c := by
  cases tree with
  | literal value =>
    cases isWord
    exact solid_renderNumber (legible.literal value (.head _))
  | name name span =>
    cases isWord
    exact (legible.name (name, span) (.head _)).solid
  | unary op operand => cases isWord
  | binary op lhs rhs => cases isWord
  | call function span arguments => cases isWord

theorem solid_of_all {text : List Char} (all : (text.all fun c => Solid c) = true) :
    ∀ c ∈ text, Solid c :=
  fun c member => of_decide_eq_true (List.all_eq_true.1 all c member)

/-- An operator is a word. -/
theorem solid_symbol (op : BinaryOp) : ∀ c ∈ op.symbol.toList, Solid c :=
  solid_of_all (by cases op <;> decide)

theorem solid_sign (op : UnaryOp) : ∀ c ∈ op.symbol.toList, Solid c :=
  solid_of_all (by cases op <;> decide)

/-- A head of a legible tree is a word. -/
theorem head {tree : Expr} (legible : Legible tree) {head : List Char} {arguments : List Expr}
    (isGroup : tree.written = .group head arguments) : ∀ c ∈ head, Solid c := by
  cases tree with
  | literal value => cases isGroup
  | name text span => cases isGroup
  | unary op operand =>
    cases isGroup
    exact solid_sign op
  | binary op lhs rhs =>
    cases isGroup
    exact solid_symbol op
  | call function span arguments =>
    cases isGroup
    exact (legible.name (function, span) (.head _)).solid

/-- **A word says which leaf it is.** -/
theorem eq_of_word {tree other : Expr} (legible : Legible tree) (alsoLegible : Legible other)
    {text : List Char} (isWord : tree.written = .word text)
    (alsoWord : other.written = .word text) : tree.unplaced = other.unplaced := by
  cases tree with
  | literal value =>
    cases isWord
    have isFinite := legible.literal value (.head _)
    cases other with
    | literal another =>
      have same : renderNumber another = renderNumber value :=
        String.toList_inj.1 (Written.word.inj alsoWord)
      rw [renderNumber_injective (alsoLegible.literal another (.head _)) isFinite same]
    | name text span =>
      have spells := alsoLegible.name (text, span) (.head _)
      rw [show text.toList = _ from Written.word.inj alsoWord] at spells
      exact absurd spells (not_spellsName_renderNumber isFinite)
    | _ => cases alsoWord
  | name text span =>
    cases isWord
    have spells := legible.name (text, span) (.head _)
    cases other with
    | literal another =>
      rw [← show _ = text.toList from Written.word.inj alsoWord] at spells
      exact absurd spells (not_spellsName_renderNumber (alsoLegible.literal another (.head _)))
    | name another place =>
      obtain rfl : another = text := String.toList_inj.1 (Written.word.inj alsoWord)
      rfl
    | _ => cases alsoWord
  | _ => cases isWord

/-- No operator is spelled as a name. -/
theorem not_spellsName_of_first {c : Char} {rest : List Char}
    (other : ¬(c = '_' ∨ Text.isAlphabetic c = true)) : ¬Scan.SpellsName (c :: rest) := by
  rintro ⟨⟨first, more, split, isFirst, -⟩, -⟩
  obtain ⟨rfl, -⟩ := List.cons_eq_cons.1 split
  exact other isFirst

theorem not_spellsName_symbol (op : BinaryOp) : ¬Scan.SpellsName op.symbol.toList := by
  cases op <;> exact not_spellsName_of_first (by decide)

theorem not_spellsName_sign (op : UnaryOp) : ¬Scan.SpellsName op.symbol.toList := by
  cases op <;> exact not_spellsName_of_first (by decide)

theorem symbol_injective {op other : BinaryOp} (same : op.symbol.toList = other.symbol.toList) :
    op = other := by
  cases op <;> cases other <;> first | rfl | exact absurd same (by decide)

theorem sign_injective {op other : UnaryOp} (same : op.symbol.toList = other.symbol.toList) :
    op = other := by
  cases op <;> cases other <;> first | rfl | exact absurd same (by decide)

/-- **A head and arguments say which tree they are of.** -/
theorem eq_of_group {tree other : Expr} (legible : Legible tree) (alsoLegible : Legible other)
    {head : List Char} {arguments others : List Expr}
    (isGroup : tree.written = .group head arguments)
    (alsoGroup : other.written = .group head others)
    (same : arguments.map Expr.unplaced = others.map Expr.unplaced) :
    tree.unplaced = other.unplaced := by
  cases tree with
  | unary op operand =>
    cases isGroup
    cases other with
    | unary another inner =>
      obtain ⟨heads, rfl⟩ := Written.group.inj alsoGroup
      rw [Expr.unplaced, Expr.unplaced, sign_injective heads, List.singleton_inj.1 same]
    | binary another lhs rhs =>
      obtain ⟨-, rfl⟩ := Written.group.inj alsoGroup
      cases congrArg List.length same
    | call function span inner =>
      have spells := alsoLegible.name (function, span) (.head _)
      rw [show function.toList = _ from (Written.group.inj alsoGroup).1] at spells
      exact absurd spells (not_spellsName_sign op)
    | _ => cases alsoGroup
  | binary op lhs rhs =>
    cases isGroup
    cases other with
    | unary another inner =>
      obtain ⟨-, rfl⟩ := Written.group.inj alsoGroup
      cases congrArg List.length same
    | binary another left right =>
      obtain ⟨heads, rfl⟩ := Written.group.inj alsoGroup
      obtain ⟨first, second⟩ := List.cons_eq_cons.1 same
      rw [Expr.unplaced, Expr.unplaced, symbol_injective heads, first, List.singleton_inj.1 second]
    | call function span inner =>
      have spells := alsoLegible.name (function, span) (.head _)
      rw [show function.toList = _ from (Written.group.inj alsoGroup).1] at spells
      exact absurd spells (not_spellsName_symbol op)
    | _ => cases alsoGroup
  | call function span inside =>
    cases isGroup
    have spells := legible.name (function, span) (.head _)
    cases other with
    | unary another inner =>
      rw [← show _ = function.toList from (Written.group.inj alsoGroup).1] at spells
      exact absurd spells (not_spellsName_sign another)
    | binary another left right =>
      rw [← show _ = function.toList from (Written.group.inj alsoGroup).1] at spells
      exact absurd spells (not_spellsName_symbol another)
    | call another place inner =>
      obtain ⟨heads, rfl⟩ := Written.group.inj alsoGroup
      rw [Expr.unplaced, Expr.unplaced, Expr.unplacedAll_eq, Expr.unplacedAll_eq, same,
        String.toList_inj.1 heads]
    | _ => cases alsoGroup
  | _ => cases isGroup

end Legible

/-! ### One reading only -/

/-- **A written tree ends where it has to**, and what is written there is no other tree. -/
def Readable (tree : Expr) : Prop :=
  ∀ (other : Expr) (rest more : List Char), Legible other → Ends rest → Ends more →
    tree.render.toList ++ rest = other.render.toList ++ more →
    tree.unplaced = other.unplaced ∧ rest = more

/-- Behind a head or an argument stand further arguments and a parenthesis. -/
theorem ends_spellAll (trees : List Expr) (rest : List Char) :
    Ends (Expr.spellAll trees ++ ')' :: rest) := by
  cases trees with
  | nil => exact .close rest
  | cons first others => exact .space _

theorem spellAll_cons (first : Expr) (others : List Expr) (rest : List Char) :
    Expr.spellAll (first :: others) ++ rest
      = ' ' :: (first.render.toList ++ (Expr.spellAll others ++ rest)) := by
  simp [Expr.spellAll]

/-- **Arguments end at the parenthesis behind them.** -/
theorem split_arguments {arguments others : List Expr}
    (readable : ∀ argument ∈ arguments, Readable argument)
    (legible : ∀ argument ∈ others, Legible argument) {rest more : List Char}
    (same : Expr.spellAll arguments ++ ')' :: rest = Expr.spellAll others ++ ')' :: more) :
    arguments.map Expr.unplaced = others.map Expr.unplaced ∧ rest = more := by
  induction arguments generalizing others with
  | nil =>
    cases others with
    | nil => exact ⟨rfl, (List.cons_eq_cons.1 same).2⟩
    | cons other others => cases (List.cons_eq_cons.1 same).1
  | cons argument arguments ih =>
    cases others with
    | nil => cases (List.cons_eq_cons.1 same).1
    | cons other others =>
      rw [spellAll_cons, spellAll_cons] at same
      obtain ⟨isFirst, behind⟩ := readable argument (.head _) other _ _ (legible other (.head _))
        (ends_spellAll arguments rest) (ends_spellAll others more) (List.cons_eq_cons.1 same).2
      obtain ⟨areOthers, isRest⟩ := ih (fun one member => readable one (.tail _ member))
        (fun one member => legible one (.tail _ member)) behind
      exact ⟨by rw [List.map_cons, List.map_cons, isFirst, areOthers], isRest⟩

/-- A word is no group. -/
theorem word_ne_group {text head rest more : List Char} (isWord : ∀ c ∈ text, Solid c)
    (ends : Ends rest) : text ++ rest ≠ '(' :: (head ++ more) := by
  intro same
  cases text with
  | nil =>
    rw [List.nil_append] at same
    subst same
    rcases ends '(' rfl with isSpace | isClose
    · cases isSpace
    · cases isClose
  | cons c text =>
    obtain ⟨rfl, -⟩ := List.cons_eq_cons.1 same
    exact (isWord '(' (.head _)).2.1 rfl

/-- **A word can be read in one way only.** -/
theorem readable_word {tree : Expr} (legible : Legible tree) {text : List Char}
    (isWord : tree.written = .word text) : Readable tree := by
  intro other rest more alsoLegible ends alsoEnds same
  rw [tree.toList_render, other.toList_render, isWord] at same
  cases isOther : other.written with
  | word another =>
    rw [isOther] at same
    obtain ⟨rfl, isRest⟩ :=
      split_words (legible.word isWord) (alsoLegible.word isOther) ends alsoEnds same
    exact ⟨legible.eq_of_word alsoLegible isWord isOther, isRest⟩
  | group head arguments =>
    rw [isOther, List.cons_append, List.append_assoc] at same
    exact absurd same (word_ne_group (legible.word isWord) ends)

/-- **A group can be read in one way only** if its arguments can. -/
theorem readable_group {tree : Expr} (legible : Legible tree) {head : List Char}
    {arguments : List Expr} (isGroup : tree.written = .group head arguments)
    (readable : ∀ argument ∈ arguments, Readable argument) : Readable tree := by
  intro other rest more alsoLegible ends alsoEnds same
  rw [tree.toList_render, other.toList_render, isGroup] at same
  cases isOther : other.written with
  | word another =>
    rw [isOther, List.cons_append, List.append_assoc] at same
    exact absurd same.symm (word_ne_group (alsoLegible.word isOther) alsoEnds)
  | group another others =>
    rw [isOther] at same
    simp only [List.cons_append, List.append_assoc, List.nil_append] at same
    obtain ⟨rfl, behind⟩ := split_words (legible.head isGroup) (alsoLegible.head isOther)
      (ends_spellAll arguments rest) (ends_spellAll others more) (List.cons_eq_cons.1 same).2
    obtain ⟨areSame, isRest⟩ := split_arguments readable (alsoLegible.argument isOther) behind
    exact ⟨legible.eq_of_group alsoLegible isGroup isOther areSame, isRest⟩

/-- **Every legible tree can be read in one way only.** -/
theorem Expr.readable (tree : Expr) (legible : Legible tree) : Readable tree := by
  induction tree using Expr.induct with
  | literal value => exact readable_word legible rfl
  | name text span => exact readable_word legible rfl
  | unary op operand ih =>
    have inside := legible.argument rfl
    refine readable_group legible rfl fun argument member => ?_
    obtain rfl := List.mem_singleton.1 member
    exact ih (inside _ member)
  | binary op lhs rhs left right =>
    have inside := legible.argument rfl
    refine readable_group legible rfl fun argument member => ?_
    rcases List.mem_cons.1 member with rfl | later
    · exact left (inside _ member)
    · obtain rfl := List.mem_singleton.1 later
      exact right (inside _ member)
  | call function span arguments ih =>
    have inside := legible.argument rfl
    exact readable_group legible rfl fun argument member => ih argument member (inside _ member)

/-! ### What a tree means -/

/-- The value of a tree does not depend on places. -/
theorem Expr.evaluate_unplaced (context : Context) (tree : Expr) :
    tree.unplaced.evaluate context = tree.evaluate context := by
  induction tree using Expr.induct with
  | literal value => rfl
  | name text span => rfl
  | unary op operand ih => rw [unplaced, evaluate, evaluate, ih]
  | binary op lhs rhs left right => rw [unplaced, evaluate, evaluate, left, right]
  | call function span arguments ih =>
    have inside : evaluateAll context (unplacedAll arguments) = evaluateAll context arguments := by
      induction arguments with
      | nil => rfl
      | cons first rest further =>
        rw [unplacedAll, evaluateAll, evaluateAll, ih first (.head _),
          further fun argument member => ih argument (.tail _ member)]
    rw [unplaced, evaluate, evaluate, inside]

/-- **The prefix form is unambiguous.** Two texts that are parsed, each within limits of its own,
and whose trees have the same prefix form have the same tree up to places. So what is printed of a
formula determines what it gives on every row. -/
theorem prefix_form_unambiguous {limits otherLimits : Limits} {text otherText : String}
    {tree other : Expr} (parsed : parse limits text = .ok tree)
    (alsoParsed : parse otherLimits otherText = .ok other) (same : tree.render = other.render) :
    tree.unplaced = other.unplaced ∧ ∀ context, tree.evaluate context = other.evaluate context := by
  have sameText : tree.render.toList ++ [] = other.render.toList ++ [] := by rw [same]
  obtain ⟨isSame, -⟩ := tree.readable (legible_of_parse parsed) other [] []
    (legible_of_parse alsoParsed) .nil .nil sameText
  refine ⟨isSame, fun context => ?_⟩
  rw [← tree.evaluate_unplaced, isSame, other.evaluate_unplaced]

/-- Parentheses and spacing do not show in the prefix form. -/
theorem prefix_form_unambiguous_respelled :
    let tree : Expr := .binary .sub (.name "a" ⟨0, 1⟩) (.unary .neg (.call "MAX" ⟨3, 3⟩ []))
    let other : Expr := .binary .sub (.name "a" ⟨1, 1⟩) (.unary .neg (.call "MAX" ⟨8, 3⟩ []))
    parse {} "a--MAX()" = .ok tree ∧ parse {} "(a) - (-MAX( ))" = .ok other ∧
    tree.render = other.render ∧ tree.unplaced = other.unplaced := by
  intro tree other
  have parsed : parse {} "a--MAX()" = .ok tree := by with_unfolding_all rfl
  have alsoParsed : parse {} "(a) - (-MAX( ))" = .ok other := by with_unfolding_all rfl
  have same : tree.render = other.render := by with_unfolding_all rfl
  exact ⟨parsed, alsoParsed, same, (prefix_form_unambiguous parsed alsoParsed same).1⟩

end ColumnCalc
