/-
**The names of a formula.**

A tree has its names, of variables and of functions, from the tokens of its formula: in prefix order
they are the name tokens in the order of the text, however the operators group, and the functions it
calls are the names with a parenthesis behind them. So their spans come one behind the other, and the
first call that is not permitted, in the order in which a tree is checked, is the leftmost one.

* `Collects`, `collect_of_derives` — what is collected from a tree is collected from its tokens.
* `forbiddenCall_eq` — the check finds the first call in prefix order that is not permitted.
* `label_of_parse` — a name is the text at its span and spelled as names are.
* `labels_ordered` — the names are in the order of the text.
* `names_faithful` — all of it, for every formula that is parsed.
-/

import ColumnCalc.Proofs.Formula.Sandbox
import ColumnCalc.Proofs.Formula.Spans

namespace ColumnCalc

open Grammar (Phrase Derives sumSigns productSigns prefixSigns)

/-- A name in a formula, with its span. -/
abbrev Label := String × Span

/-- **A name is in front of another one**: its span starts and ends before the other span starts. -/
def Label.Before (earlier later : Label) : Prop :=
  earlier.2.offset < later.2.offset ∧ earlier.2.stop ≤ later.2.offset

namespace Expr

/-- The name at the root of a tree, of a variable or of a function. -/
def label? : Expr → Option Label
  | name text span => some (text, span)
  | call function span _ => some (function, span)
  | _ => none

/-- The function that the root of a tree calls. -/
def callee? : Expr → Option Label
  | call function span _ => some (function, span)
  | _ => none

/-- What the nodes of a tree give, in prefix order. -/
def collect (part : Expr → Option Label) (tree : Expr) : List Label :=
  tree.subtrees.filterMap part

/-- The names of a tree in prefix order. -/
def labels (tree : Expr) : List Label :=
  tree.collect label?

/-- The functions that a tree calls, in prefix order. -/
def callees (tree : Expr) : List Label :=
  tree.collect callee?

/-- What the root of a tree gives comes first. -/
theorem filterMap_root {part : Expr → Option Label} (root : Expr) (inside : List Expr) :
    (root :: inside).filterMap part = (part root).toList ++ inside.filterMap part := by
  rw [List.filterMap_cons]
  cases part root <;> rfl

theorem label_of_callee {tree : Expr} {label : Label} (isCallee : tree.callee? = some label) :
    tree.label? = some label := by
  cases tree with
  | call function span arguments => exact isCallee
  | literal value => cases isCallee
  | name text span => cases isCallee
  | unary op operand => cases isCallee
  | binary op lhs rhs => cases isCallee

theorem mem_labels_of_callees {tree : Expr} {label : Label} (member : label ∈ tree.callees) :
    label ∈ tree.labels := by
  obtain ⟨node, isNode, isCallee⟩ := List.mem_filterMap.1 member
  exact List.mem_filterMap.2 ⟨node, isNode, label_of_callee isCallee⟩

/-- A call is not permitted if its function is none of those that are there. -/
def Forbids (callee : Label) : Bool :=
  (Builtin.ofName? callee.1).isNone

/-- **The check finds the first call in prefix order that is not permitted.** -/
theorem forbiddenCall_eq (tree : Expr) : tree.forbiddenCall? = tree.callees.find? Forbids := by
  induction tree using Expr.induct with
  | literal value => rfl
  | name text span => rfl
  | unary op operand ih => exact ih
  | binary op lhs rhs left right =>
    rw [forbiddenCall?, left, right, ← List.find?_append, callees, callees, collect, collect,
      ← List.filterMap_append]
    rfl
  | call function span arguments ih =>
    have inside : forbiddenCallOfAll? arguments
        = ((subtreesOfAll arguments).filterMap callee?).find? Forbids := by
      induction arguments with
      | nil => rfl
      | cons first rest further =>
        rw [forbiddenCallOfAll?, ih first (.head _),
          further fun argument member => ih argument (.tail _ member), subtreesOfAll,
          List.filterMap_append, List.find?_append]
        rfl
    have isFirst : (call function span arguments).callees
        = (function, span) :: (subtreesOfAll arguments).filterMap callee? := by
      rw [callees, collect, subtrees]
      exact filterMap_root _ _
    rw [forbiddenCall?, inside, isFirst, List.find?_cons, Forbids]
    cases (Builtin.ofName? function).isNone <;> rfl

end Expr

/-! ### Names among tokens -/

namespace Token

/-- The name that a token is. -/
def label? (token : Token) : Option Label :=
  match token.kind with
  | .name => some (token.literal, token.span)
  | _ => none

/-- The name that a token is, if the token behind it makes it a call. -/
def callee? (token next : Token) : Option Label :=
  match next.kind with
  | .leftParen => token.label?
  | _ => none

/-- A token that is neither a name nor makes one a call. -/
def Separates (token : Token) : Prop :=
  token.kind ≠ .name ∧ token.kind ≠ .leftParen

theorem label_of_name {token : Token} (isName : token.kind = .name) :
    token.label? = some (token.literal, token.span) := by
  simp only [label?, isName]

theorem label_of_other {token : Token} (noName : token.kind ≠ .name) : token.label? = none := by
  unfold label?
  split
  · exact absurd ‹_› noName
  · rfl

theorem callee_of_paren {token next : Token} (isParen : next.kind = .leftParen) :
    token.callee? next = token.label? := by
  simp only [callee?, isParen]

theorem callee_of_other {token next : Token} (noParen : next.kind ≠ .leftParen) :
    token.callee? next = none := by
  unfold callee?
  split
  · exact absurd ‹_› noParen
  · rfl

theorem separates_of_kind {token : Token} {kind : TokenKind} (isKind : token.kind = kind)
    (noName : kind ≠ .name) (noParen : kind ≠ .leftParen) : token.Separates :=
  ⟨isKind ▸ noName, isKind ▸ noParen⟩

theorem separates_of_sumSigns {token : Token} {op : BinaryOp}
    (isSign : (token.kind, op) ∈ sumSigns) : token.Separates := by
  constructor <;> intro same <;> simp [sumSigns, same] at isSign

theorem separates_of_productSigns {token : Token} {op : BinaryOp}
    (isSign : (token.kind, op) ∈ productSigns) : token.Separates := by
  constructor <;> intro same <;> simp [productSigns, same] at isSign

theorem ne_name_of_prefixSigns {token : Token} {op : UnaryOp}
    (isSign : (token.kind, op) ∈ prefixSigns) : token.kind ≠ .name := by
  intro same
  simp [prefixSigns, same] at isSign

end Token

/-- **The calls in a text**: the names that have an opening parenthesis behind them. -/
def calleesIn : List Token → List Label
  | token :: next :: rest => (token.callee? next).toList ++ calleesIn (next :: rest)
  | _ => []

/-- A token that is no name is no call. -/
theorem calleesIn_cons {token : Token} (noName : token.kind ≠ .name) (rest : List Token) :
    calleesIn (token :: rest) = calleesIn rest := by
  cases rest with
  | nil => rfl
  | cons next rest =>
    have noCallee : token.callee? next = none := by
      unfold Token.callee?
      split
      · exact Token.label_of_other noName
      · rfl
    rw [calleesIn, noCallee]
    rfl

/-- No call reaches over a token that separates names. -/
theorem calleesIn_append {middle : Token} (separates : middle.Separates) (left right : List Token) :
    calleesIn (left ++ middle :: right) = calleesIn left ++ calleesIn right := by
  induction left with
  | nil => exact calleesIn_cons separates.1 right
  | cons token left ih =>
    cases left with
    | nil =>
      rw [List.cons_append, List.nil_append, calleesIn, Token.callee_of_other separates.2,
        calleesIn_cons separates.1]
      rfl
    | cons next left =>
      rw [List.cons_append, List.cons_append, calleesIn, ← List.cons_append, ih, calleesIn,
        List.append_assoc]

/-! ### Names of what is derived -/

/-- **Names are collected alike from nodes and from tokens**: only names and calls give any, those of
tokens do not reach over other tokens, and a call gives what its name and parenthesis do. -/
structure Collects (part : Expr → Option Label) (read : List Token → List Label) : Prop where
  literal : ∀ value, part (.literal value) = none
  unary : ∀ op operand, part (.unary op operand) = none
  binary : ∀ op lhs rhs, part (.binary op lhs rhs) = none
  empty : read [] = []
  skip : ∀ token rest, token.kind ≠ .name → read (token :: rest) = read rest
  separated : ∀ middle left right, middle.Separates →
    read (left ++ middle :: right) = read left ++ read right
  name : ∀ token, token.kind = .name →
    read [token] = (part (.name token.literal token.span)).toList
  call : ∀ token opening rest arguments, token.kind = .name → opening.kind = .leftParen →
    read (token :: opening :: rest)
      = (part (.call token.literal token.span arguments)).toList ++ read rest

namespace Collects

variable {part : Expr → Option Label} {read : List Token → List Label}

/-- A token at the end that gives nothing. -/
theorem concat (collects : Collects part read) {last : Token} (separates : last.Separates)
    (tokens : List Token) : read (tokens ++ [last]) = read tokens := by
  rw [collects.separated last tokens [] separates, collects.empty, List.append_nil]

/-- An operator between its operands. -/
theorem operator (collects : Collects part read) {op : BinaryOp} {lhs rhs : Expr} {sign : Token}
    {left right : List Token} (separates : sign.Separates)
    (first : lhs.subtrees.filterMap part = read left)
    (second : rhs.subtrees.filterMap part = read right) :
    (Expr.binary op lhs rhs).subtrees.filterMap part = read (left ++ sign :: right) := by
  rw [collects.separated sign left right separates, ← first, ← second, Expr.subtrees,
    List.filterMap_cons_none (collects.binary op lhs rhs), List.filterMap_append]

/-- **What is collected from the subtrees of a phrase is collected from its tokens.** -/
theorem collect_of_derives (collects : Collects part read) {phrase : Phrase} {tokens : List Token}
    (derived : Derives phrase tokens) : phrase.subtrees.filterMap part = read tokens := by
  have closes {closing : Token} (isClosing : closing.kind = .rightParen) : closing.Separates :=
    Token.separates_of_kind isClosing nofun nofun
  induction derived with
  | ofTerm _ ih => exact ih
  | ofUnary _ ih => exact ih
  | ofPower _ ih => exact ih
  | ofPrimary _ ih => exact ih
  | sum _ isSign _ left right =>
    exact collects.operator (Token.separates_of_sumSigns isSign) left right
  | product _ isSign _ left right =>
    exact collects.operator (Token.separates_of_productSigns isSign) left right
  | power _ isSign _ left right =>
    exact collects.operator (Token.separates_of_kind isSign nofun nofun) left right
  | sign isSign _ ih =>
    rw [collects.skip _ _ (Token.ne_name_of_prefixSigns isSign), ← ih]
    exact List.filterMap_cons_none (collects.unary _ _)
  | number isNumber =>
    rw [collects.skip _ _ (by rw [isNumber]; nofun), collects.empty]
    exact List.filterMap_cons_none (collects.literal _)
  | name isName =>
    rw [collects.name _ isName]
    exact (Expr.filterMap_root _ []).trans (List.append_nil _)
  | @emptyCall name opening closing isName isOpening isClosing =>
    rw [collects.call name opening [closing] [] isName isOpening,
      ← List.nil_append [closing], collects.concat (closes isClosing), collects.empty]
    exact Expr.filterMap_root _ []
  | call isName isOpening _ isClosing ih =>
    rw [List.cons_append, List.cons_append, collects.call _ _ _ _ isName isOpening,
      collects.concat (closes isClosing), ← ih]
    exact Expr.filterMap_root _ _
  | paren isOpening _ isClosing ih =>
    rw [List.cons_append, collects.skip _ _ (by rw [isOpening]; nofun),
      collects.concat (closes isClosing)]
    exact ih
  | last _ ih =>
    rw [← ih]
    exact congrArg (List.filterMap part) (List.append_nil _)
  | more _ isComma _ first rest =>
    rw [collects.separated _ _ _ (Token.separates_of_kind isComma nofun nofun), ← first, ← rest]
    exact List.filterMap_append

/-- Names of variables and functions. -/
theorem labels : Collects Expr.label? (List.filterMap Token.label?) where
  literal _ := rfl
  unary _ _ := rfl
  binary _ _ _ := rfl
  empty := rfl
  skip _ _ noName := List.filterMap_cons_none (Token.label_of_other noName)
  separated middle left right separates := by
    rw [List.filterMap_append, List.filterMap_cons_none (Token.label_of_other separates.1)]
  name token isName := List.filterMap_cons_some (Token.label_of_name isName)
  call token opening rest _ isName isOpening := by
    rw [List.filterMap_cons_some (Token.label_of_name isName),
      List.filterMap_cons_none (Token.label_of_other (by rw [isOpening]; nofun))]
    rfl

/-- Names of functions. -/
theorem callees : Collects Expr.callee? calleesIn where
  literal _ := rfl
  unary _ _ := rfl
  binary _ _ _ := rfl
  empty := rfl
  skip token rest noName := calleesIn_cons noName rest
  separated middle left right separates := calleesIn_append separates left right
  name _ _ := rfl
  call token opening rest _ isName isOpening := by
    rw [calleesIn, Token.callee_of_paren isOpening, Token.label_of_name isName,
      calleesIn_cons (by rw [isOpening]; nofun)]
    rfl

end Collects

/-! ### Names of a formula that is parsed -/

/-- The names of a tree and of its formula are the same, and so are the calls. -/
theorem labels_of_parse {limits : Limits} {text : String} {tree : Expr}
    (parsed : parse limits text = .ok tree) :
    ∃ tokens, itemsOf text = tokens.map .ok ∧ tree.labels = tokens.filterMap Token.label? ∧
      tree.callees = calleesIn tokens := by
  obtain ⟨tokens, areItems, derived⟩ := Parser.derives_of_parse parsed
  exact ⟨tokens, areItems, Collects.labels.collect_of_derives derived,
    Collects.callees.collect_of_derives derived⟩

/-- **A name is the text at its span**, and it is spelled as names are. -/
theorem label_of_parse {limits : Limits} {text : String} {tree : Expr}
    (parsed : parse limits text = .ok tree) {name : String} {span : Span}
    (member : (name, span) ∈ tree.labels) :
    Covers text.toList span name.toList ∧ 0 < span.length ∧ Scan.SpellsName name.toList := by
  obtain ⟨tokens, areItems, areLabels, -⟩ := labels_of_parse parsed
  rw [areLabels] at member
  obtain ⟨token, isToken, isLabel⟩ := List.mem_filterMap.1 member
  have isItem : .ok token ∈ itemsOf text := areItems ▸ List.mem_map_of_mem isToken
  unfold Token.label? at isLabel
  split at isLabel
  · rename_i isName
    cases isLabel
    obtain ⟨_, stands⟩ := standsIn_of_itemsOf isItem
    have inText := stands.token token rfl
    obtain ⟨c, rest, taken, found, isLiteral⟩ := lexeme_of_itemsOf isItem
    rw [isName] at found
    exact ⟨inText.covers, inText.nonempty, isLiteral ▸ Scan.name_of_lexeme found⟩
  · cases isLabel

/-- **The names of a tree are in the order of the text** if they are taken in prefix order. -/
theorem labels_ordered {limits : Limits} {text : String} {tree : Expr}
    (parsed : parse limits text = .ok tree) : tree.labels.Pairwise Label.Before := by
  obtain ⟨tokens, areItems, areLabels, -⟩ := labels_of_parse parsed
  have ordered := itemsOf_ordered text
  rw [areItems, List.pairwise_map] at ordered
  rw [areLabels, List.pairwise_filterMap]
  refine ordered.imp fun {token next} inFront label isLabel other isOther => ?_
  have spanOf {token : Token} {label : Label} (isLabel : token.label? = some label) :
      spanOf? (.ok token) = some label.2 := by
    unfold Token.label? at isLabel
    split at isLabel <;> cases isLabel
    rfl
  have isBefore := inFront label.2 other.2 (spanOf isLabel) (spanOf isOther)
  exact ⟨isBefore.1, isBefore.2 token rfl⟩

/-- Calls are among the names. -/
theorem callees_ordered {limits : Limits} {text : String} {tree : Expr}
    (parsed : parse limits text = .ok tree) : tree.callees.Pairwise Label.Before := by
  have ordered := labels_ordered parsed
  rw [Expr.labels, Expr.collect, List.pairwise_filterMap] at ordered
  rw [Expr.callees, Expr.collect, List.pairwise_filterMap]
  exact ordered.imp fun inFront label isLabel other isOther =>
    inFront label (Expr.label_of_callee isLabel) other (Expr.label_of_callee isOther)

/-- Whoever finds the first of some names in the order of a text finds the leftmost. -/
theorem leftmost_of_find {labels : List Label} {p : Label → Bool} {label : Label}
    (ordered : labels.Pairwise Label.Before) (found : labels.find? p = some label) :
    label ∈ labels ∧ p label = true ∧
      ∀ other ∈ labels, p other = true → other = label ∨ label.Before other := by
  obtain ⟨holds, earlier, later, rfl, fails⟩ := List.find?_eq_some_iff_append.1 found
  refine ⟨List.mem_append_right _ (.head _), holds, fun other member isOther => ?_⟩
  rcases List.mem_append.1 member with before | there
  · have failed := fails other before
    rw [isOther] at failed
    cases failed
  · rcases List.mem_cons.1 there with same | behind
    · exact .inl same
    · exact .inr (List.rel_of_pairwise_cons (List.pairwise_append.1 ordered).2.1 behind)

/-- A formula that is parsed is rejected for a call only if the check finds that call. -/
theorem forbiddenCall_of_accept {limits : Limits} {text : String} {tree : Expr} {name : String}
    {span : Span} (parsed : parse limits text = .ok tree)
    (rejected : Formula.accept text limits = .error (.disallowedFunction name span)) :
    tree.forbiddenCall? = some (name, span) := by
  rcases accept_error rejected with failed | ⟨other, isOther, checked⟩
  · rw [parsed] at failed
    cases failed
  · cases parsed.symm.trans isOther
    rcases check_error checked with ⟨excess, same⟩ | ⟨_, _, isForbidden, same⟩
    · cases same
    · cases same
      exact isForbidden

/-- **Names and their spans are faithful.** Every name in the tree of a formula, of a variable or of
a function, is the text at its span and is spelled as a name. In prefix order the spans are those of
the name tokens of the formula, one behind the other, and the calls are the names that have a
parenthesis behind them. If the formula is then rejected for a call, that is the leftmost call in
the text whose function is not permitted. -/
theorem names_faithful {limits : Limits} {text : String} {tree : Expr}
    (parsed : parse limits text = .ok tree) :
    (∀ name span, (name, span) ∈ tree.labels →
      Covers text.toList span name.toList ∧ Scan.SpellsName name.toList) ∧
    tree.labels.Pairwise Label.Before ∧
    (∃ tokens, itemsOf text = tokens.map .ok ∧ tree.labels = tokens.filterMap Token.label? ∧
      tree.callees = calleesIn tokens) ∧
    ∀ name span, Formula.accept text limits = .error (.disallowedFunction name span) →
      (name, span) ∈ tree.callees ∧ Builtin.ofName? name = none ∧
      ∀ other ∈ tree.callees, Builtin.ofName? other.1 = none →
        other = (name, span) ∨ Label.Before (name, span) other := by
  refine ⟨fun name span member => ?_, labels_ordered parsed, labels_of_parse parsed,
    fun name span rejected => ?_⟩
  · obtain ⟨covers, -, spells⟩ := label_of_parse parsed member
    exact ⟨covers, spells⟩
  · have found := forbiddenCall_of_accept parsed rejected
    rw [Expr.forbiddenCall_eq] at found
    obtain ⟨member, forbids, leftmost⟩ := leftmost_of_find (callees_ordered parsed) found
    refine ⟨member, Option.isNone_iff_eq_none.1 forbids, fun other isCallee isOther => ?_⟩
    exact leftmost other isCallee (Option.isNone_iff_eq_none.2 isOther)

/-- A name of two bytes, and two calls that are not permitted, of which the outer one is leftmost. -/
theorem names_faithful_nested :
    let tree : Expr := .call "MAX" ⟨0, 3⟩ [.name "é" ⟨4, 2⟩,
      .call "open" ⟨8, 4⟩ [.call "exec" ⟨13, 4⟩ [.name "a" ⟨18, 1⟩]]]
    parse {} "MAX(é, open(exec(a)))" = .ok tree ∧
    Formula.accept "MAX(é, open(exec(a)))" = .error (.disallowedFunction "open" ⟨8, 4⟩) ∧
    Covers "MAX(é, open(exec(a)))".toList ⟨4, 2⟩ "é".toList ∧ tree.labels.Pairwise Label.Before ∧
    ∀ other ∈ tree.callees, Builtin.ofName? other.1 = none →
      other = ("open", ⟨8, 4⟩) ∨ Label.Before ("open", ⟨8, 4⟩) other := by
  intro tree
  have parsed : parse {} "MAX(é, open(exec(a)))" = .ok tree := by with_unfolding_all rfl
  have rejected : Formula.accept "MAX(é, open(exec(a)))"
      = .error (.disallowedFunction "open" ⟨8, 4⟩) := by
    with_unfolding_all rfl
  obtain ⟨faithful, ordered, -, leftmost⟩ := names_faithful parsed
  have isLabel : ("é", ⟨4, 2⟩) ∈ tree.labels := .tail _ (.head _)
  exact ⟨parsed, rejected, (faithful "é" ⟨4, 2⟩ isLabel).1, ordered, (leftmost _ _ rejected).2.2⟩

end ColumnCalc
