/-
**Peeking is transparent.**

What a lexer still has to give is one list: the item that it has read ahead, if there is one, and
the items of the text behind it (`Lexer.upcoming`). Taking an item takes the first of the list and
peeking leaves the list as it is, wherever the item is kept. So the items that calls take are those
of plain iteration, and at the end there is nothing however often is asked.

* `next_upcoming`, `answer_upcoming` — what one call does to the list.
* `after_upcoming` — what any calls do to it.
* `answers_taken`, `answers_iterated`, `answers_peeked` — what runs of calls answer.
* `expect_eq_ok_iff` — when a token of a kind is answered.
* `peeking_transparent` — all of it, for every formula and every sequence of calls.
-/

import ColumnCalc.Proofs.Formula.Lexing

namespace ColumnCalc

namespace Scan

theorem items_of_end {byte : Nat} {text : List Char} (found : scan byte text = none) :
    items byte text = [] := by
  rw [items, found]

theorem items_of_scan {byte : Nat} {text : List Char} {scanned : Scanned}
    (found : scan byte text = some scanned) :
    items byte text = scanned.item :: items scanned.stop scanned.rest := by
  rw [items, found]

end Scan

namespace Lexer

/-- The calls that take an item; peeking does not. -/
def Call.takes : Call → Bool
  | .next => true
  | .peek => false
  | .expect _ _ => true

/-- What a lexer still has to give. -/
def upcoming (lexer : Lexer) : List Item :=
  lexer.peeked.toList ++ Scan.items lexer.byte lexer.rest

/-! ### One call -/

/-- Whoever takes an item has none read ahead. -/
theorem peeked_next (lexer : Lexer) : lexer.next.2.peeked = none := by
  cases ahead : lexer.peeked with
  | some item => rw [next_of_peeked ahead]
  | none =>
    cases found : Scan.scan lexer.byte lexer.rest with
    | none => rw [next_of_end ahead found, atEnd]
    | some scanned => rw [next_of_scan ahead found, ahead]

/-- **The next item is the first of the list**, and it is gone from the list. -/
theorem next_upcoming (lexer : Lexer) :
    lexer.next.1 = lexer.upcoming.head? ∧ lexer.next.2.upcoming = lexer.upcoming.tail := by
  cases ahead : lexer.peeked with
  | some item =>
    rw [next_of_peeked ahead, upcoming, upcoming, ahead]
    exact ⟨rfl, rfl⟩
  | none =>
    cases found : Scan.scan lexer.byte lexer.rest with
    | none =>
      rw [next_of_end ahead found, upcoming, upcoming, ahead, Scan.items_of_end found]
      exact ⟨rfl, Scan.items_of_end rfl⟩
    | some scanned =>
      rw [next_of_scan ahead found, upcoming, upcoming, ahead, Scan.items_of_scan found]
      exact ⟨rfl, rfl⟩

/-- Peeking answers the first item of the list, and the list stays. -/
theorem peek_upcoming (lexer : Lexer) :
    lexer.peek.1 = lexer.upcoming.head? ∧ lexer.peek.2.upcoming = lexer.upcoming := by
  obtain ⟨isFirst, areRest⟩ := next_upcoming lexer
  rw [upcoming, peeked_next, Option.toList_none, List.nil_append] at areRest
  rw [peek_eq]
  refine ⟨isFirst, ?_⟩
  -- The item goes back in front of what is left behind it.
  rw [upcoming, isFirst, areRest]
  cases lexer.upcoming <;> rfl

/-- **What a call does to the list**: it takes one item or none. -/
theorem answer_upcoming (lexer : Lexer) (call : Call) :
    (lexer.answer call).2.upcoming = lexer.upcoming.drop (if call.takes then 1 else 0) := by
  cases call with
  | next => rw [answer, (next_upcoming lexer).2, ← List.drop_one, Call.takes, if_pos rfl]
  | peek => exact (peek_upcoming lexer).2
  | expect kind expected =>
    rw [answer, (expect_eq lexer kind expected).1, (next_upcoming lexer).2, ← List.drop_one,
      Call.takes, if_pos rfl]

/-- **A token is answered to whoever expects one** exactly if it is next and of the kind. -/
theorem expect_eq_ok_iff {lexer : Lexer} {kind : TokenKind} {expected : Expectation}
    {token : Token} :
    (lexer.expect kind expected).1 = .ok token ↔
      lexer.next.1 = some (.ok token) ∧ (token.kind == kind) = true := by
  unfold expect
  split
  · rename_i other after isNext
    rw [isNext]
    split
    · rename_i isKind
      constructor
      · rintro ⟨⟩
        exact ⟨rfl, isKind⟩
      · rintro ⟨⟨⟩, -⟩
        rfl
    · rename_i otherKind
      constructor
      · rintro ⟨⟩
      · rintro ⟨⟨⟩, isKind⟩
        exact absurd isKind otherKind
  · rename_i error after isNext
    rw [isNext]
    exact ⟨nofun, fun ⟨same, _⟩ => nomatch same⟩
  · rename_i after isNext
    rw [isNext]
    exact ⟨nofun, fun ⟨same, _⟩ => nomatch same⟩

/-! ### Runs -/

/-- **What calls do to the list**: as many items are gone as there are calls that take one. -/
theorem after_upcoming (lexer : Lexer) (calls : List Call) :
    (lexer.after calls).upcoming = lexer.upcoming.drop (calls.countP Call.takes) := by
  induction calls generalizing lexer with
  | nil => rfl
  | cons call calls ih =>
    rw [after, List.foldl_cons, ← after, ih, answer_upcoming, List.drop_drop, List.countP_cons,
      Nat.add_comm]

/-- The item behind those that were taken. -/
theorem next_after (lexer : Lexer) (calls : List Call) :
    (lexer.after calls).next.1 = lexer.upcoming[calls.countP Call.takes]? := by
  rw [(next_upcoming _).1, after_upcoming, List.head?_drop]

/-- The calls of a run are those that were made. -/
theorem call_mem_of_transcript {lexer : Lexer} {calls : List Call} {step : Step}
    (member : step ∈ lexer.transcript calls) : step.call ∈ calls := by
  induction calls generalizing lexer with
  | nil => cases member
  | cons call calls ih =>
    rcases List.mem_cons.1 member with rfl | later
    · exact .head _
    · exact .tail _ (ih later)

/-- **Items are taken in order**, however often is peeked in between. -/
theorem answers_taken (lexer : Lexer) {calls : List Call}
    (plain : ∀ call ∈ calls, call = .next ∨ call = .peek) :
    ((lexer.transcript calls).filter (·.call.takes)).map Step.answer
      = (List.range (calls.countP Call.takes)).map fun place => lexer.upcoming[place]? := by
  induction calls generalizing lexer with
  | nil => rfl
  | cons call calls ih =>
    have further := ih (lexer.answer call).2 fun other member => plain other (.tail _ member)
    rw [answer_upcoming] at further
    rw [transcript]
    rcases plain call (.head _) with rfl | rfl
    · rw [List.filter_cons_of_pos rfl, List.map_cons, further, List.countP_cons_of_pos rfl,
        List.range_succ_eq_map, List.map_cons, List.map_map, answer, (next_upcoming lexer).1,
        List.head?_eq_getElem?]
      refine congrArg _ (List.map_congr_left fun place _ => ?_)
      rw [List.getElem?_drop, Nat.add_comm]
      rfl
    · rw [List.filter_cons_of_neg Bool.false_ne_true, further,
        List.countP_cons_of_neg Bool.false_ne_true]
      rfl

/-- **Plain iteration** takes the items one after another, and then nothing however often. -/
theorem answers_iterated (lexer : Lexer) (count : Nat) :
    (lexer.transcript (.replicate count .next)).map Step.answer
      = (List.range count).map fun place => lexer.upcoming[place]? := by
  have taken := @answers_taken lexer (.replicate count .next) fun call member =>
    .inl (List.eq_of_mem_replicate member)
  have allTake : ∀ step ∈ lexer.transcript (.replicate count .next), step.call.takes = true := by
    intro step member
    rw [List.eq_of_mem_replicate (call_mem_of_transcript member)]
    rfl
  rw [List.filter_eq_self.2 allTake, List.countP_replicate, Call.takes, if_pos rfl] at taken
  exact taken

/-- **Peeks answer what is taken then**, however many of them there are. -/
theorem answers_peeked (lexer : Lexer) (count : Nat) :
    (lexer.transcript (.replicate count .peek ++ [.next])).map Step.answer
      = .replicate (count + 1) lexer.upcoming.head? := by
  induction count generalizing lexer with
  | zero =>
    rw [List.replicate_zero, List.nil_append, transcript, answer, (next_upcoming lexer).1]
    rfl
  | succ count ih =>
    rw [List.replicate_succ, List.cons_append, transcript, List.map_cons, answer, ih,
      (peek_upcoming lexer).1, (peek_upcoming lexer).2]
    rfl

end Lexer

/-- **Peeking is transparent.** In any sequence of calls that take an item or peek, the items that
are taken are those that plain iteration takes: the items of the formula in order, and nothing from
its end on. After any calls, peeks answer what is taken then, however many of them there are, and
that is the item behind those that were taken. A token is answered to a call that expects one
exactly if it is that item and of the expected kind, and in any case the call leaves the lexer as
taking the item does. -/
theorem peeking_transparent (formula : String) :
    (∀ calls : List Lexer.Call, (∀ call ∈ calls, call = .next ∨ call = .peek) →
      (((Lexer.ofFormula formula).transcript calls).filter (·.call.takes)).map Lexer.Step.answer
        = ((Lexer.ofFormula formula).transcript
            (.replicate (calls.countP Lexer.Call.takes) .next)).map Lexer.Step.answer) ∧
    (∀ count, ((Lexer.ofFormula formula).transcript (.replicate count .next)).map Lexer.Step.answer
      = (List.range count).map fun place => (itemsOf formula)[place]?) ∧
    ∀ calls : List Lexer.Call,
      let here := (Lexer.ofFormula formula).after calls
      let item := (itemsOf formula)[calls.countP Lexer.Call.takes]?
      (∀ count, (here.transcript (.replicate count .peek ++ [.next])).map Lexer.Step.answer
        = .replicate (count + 1) item) ∧
      ∀ kind expected,
        (here.expect kind expected).2 = here.next.2 ∧
        ∀ token, (here.expect kind expected).1 = .ok token ↔
          item = some (.ok token) ∧ (token.kind == kind) = true := by
  refine ⟨fun calls plain => ?_, (Lexer.ofFormula formula).answers_iterated, fun calls => ?_⟩
  · rw [Lexer.answers_taken _ plain, Lexer.answers_iterated]
  · intro here item
    have isItem : here.next.1 = item := Lexer.next_after _ calls
    refine ⟨fun count => ?_, fun kind expected =>
      ⟨(here.expect_eq kind expected).1, fun token => ?_⟩⟩
    · rw [here.answers_peeked, ← (here.next_upcoming).1, isItem]
    · rw [Lexer.expect_eq_ok_iff, isItem]

/-- The four items that are taken from `a $ b`, with peeks in between: two names, a lexical error
between them, and the end. -/
theorem peeking_transparent_error :
    let calls : List Lexer.Call := [.peek, .peek, .next, .next, .peek, .next, .peek, .peek, .next]
    (∀ call ∈ calls, call = .next ∨ call = .peek) ∧
    (((Lexer.ofFormula "a $ b").transcript calls).filter (·.call.takes)).map Lexer.Step.answer
      = [some (.ok ⟨.name, "a", 0⟩),
          some (.error (.malformed (.unexpectedCharacter '$') ⟨2, 1⟩)),
          some (.ok ⟨.name, "b", 4⟩), none] := by
  intro calls
  have plain : ∀ call ∈ calls, call = .next ∨ call = .peek := by simp [calls]
  have transparent := peeking_transparent "a $ b"
  have isItems : itemsOf "a $ b" = [.ok ⟨.name, "a", 0⟩,
      .error (.malformed (.unexpectedCharacter '$') ⟨2, 1⟩), .ok ⟨.name, "b", 4⟩] := by
    with_unfolding_all rfl
  refine ⟨plain, (transparent.1 calls plain).trans ((transparent.2.1 4).trans ?_)⟩
  rw [isItems]
  rfl

end ColumnCalc
