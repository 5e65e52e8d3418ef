/-
**Computations that may fail.**

A computation made of several ones succeeds exactly when each of them does. Proofs about readers and
parsers take an answer apart by these equivalences.
-/

namespace ColumnCalc

variable {ε α β : Type}

/-- A step and what follows it. -/
theorem bind_eq_ok {first : Except ε α} {further : α → Except ε β} {answer : β} :
    first >>= further = .ok answer ↔ ∃ value, first = .ok value ∧ further value = .ok answer := by
  cases first with
  | error error => exact ⟨nofun, fun ⟨_, failed, _⟩ => nomatch failed⟩
  | ok value =>
    constructor
    · exact fun same => ⟨value, rfl, same⟩
    · rintro ⟨_, found, same⟩
      cases found
      exact same

/-- What follows a step goes on from its value. -/
theorem bind_of_ok {first : Except ε α} {value : α} (went : first = .ok value)
    (further : α → Except ε β) : first >>= further = further value := by
  rw [went]
  rfl

/-- Nothing follows a step that fails. -/
theorem bind_of_error {first : Except ε α} {error : ε} (failed : first = .error error)
    (further : α → Except ε β) : first >>= further = .error error := by
  rw [failed]
  rfl

/-- A change of the answer. -/
theorem map_eq_ok {first : Except ε α} {change : α → β} {answer : β} :
    first.map change = .ok answer ↔ ∃ value, first = .ok value ∧ change value = answer := by
  cases first with
  | error error => exact ⟨nofun, fun ⟨_, failed, _⟩ => nomatch failed⟩
  | ok value =>
    constructor
    · exact fun same => ⟨value, rfl, Except.ok.inj same⟩
    · rintro ⟨_, found, same⟩
      cases found
      exact congrArg _ same

/-- A change of the error. -/
theorem mapError_eq_ok {first : Except ε α} {change : ε → β} {answer : α} :
    first.mapError change = .ok answer ↔ first = .ok answer := by
  cases first with
  | error error => exact ⟨nofun, nofun⟩
  | ok value =>
    constructor
    · exact fun same => congrArg _ (Except.ok.inj same)
    · exact fun same => congrArg _ (Except.ok.inj same)

/-- A computation that succeeds has an answer. -/
theorem exists_of_isOk {answer : Except ε α} (isOk : answer.isOk = true) :
    ∃ value, answer = .ok value := by
  cases answer with
  | error error => cases isOk
  | ok value => exact ⟨value, rfl⟩

/-! ### Folds -/

section Fold

variable {step : β → α → Except ε β} {state next : β}

/-- A fold goes on behind its first step. -/
theorem foldlM_cons_of_ok {item : α} (went : step state item = .ok next) (items : List α) :
    (item :: items).foldlM step state = items.foldlM step next := by
  rw [List.foldlM_cons, went]
  rfl

/-- A fold goes on behind its first items. -/
theorem foldlM_append_of_ok {first : List α} (went : first.foldlM step state = .ok next)
    (second : List α) : (first ++ second).foldlM step state = second.foldlM step next := by
  rw [List.foldlM_append, went]
  rfl

end Fold

/-- Every value of a list of computations is the value of one of them. -/
theorem exists_of_mapM {step : α → Except ε β} {items : List α} {values : List β}
    (done : items.mapM step = .ok values) {value : β} (member : value ∈ values) :
    ∃ item ∈ items, step item = .ok value := by
  induction items generalizing values with
  | nil =>
    rw [List.mapM_nil] at done
    cases done
    cases member
  | cons item items ih =>
    rw [List.mapM_cons] at done
    obtain ⟨first, isFirst, went⟩ := bind_eq_ok.1 done
    obtain ⟨others, areOthers, same⟩ := bind_eq_ok.1 went
    cases same
    rcases List.mem_cons.1 member with rfl | isOther
    · exact ⟨item, .head _, isFirst⟩
    · obtain ⟨source, isSource, made⟩ := ih areOthers isOther
      exact ⟨source, .tail _ isSource, made⟩

/-! ### What a computation fails with -/

/-- **Every error of a computation has a cause of some kind.** -/
def FailsWith (cause : ε → Prop) (answer : Except ε α) : Prop :=
  ∀ error, answer = .error error → cause error

namespace FailsWith

variable {cause : ε → Prop}

theorem ok (value : α) : FailsWith cause (.ok value) := nofun

theorem error {fault : ε} (isCause : cause fault) :
    FailsWith cause (.error fault : Except ε α) := by
  rintro _ ⟨⟩
  exact isCause

theorem bind {first : Except ε α} {further : α → Except ε β} (fails : FailsWith cause first)
    (failsFurther : ∀ value, first = .ok value → FailsWith cause (further value)) :
    FailsWith cause (first >>= further) := by
  cases first with
  | error fault => exact error (fails fault rfl)
  | ok value => exact failsFurther value rfl

theorem map {answer : Except ε α} (fails : FailsWith cause answer) (change : α → β) :
    FailsWith cause (answer.map change) := by
  cases answer with
  | error fault => exact error (fails fault rfl)
  | ok value => exact ok (change value)

theorem foldlM {step : β → α → Except ε β}
    (fails : ∀ state item, FailsWith cause (step state item)) (items : List α) (state : β) :
    FailsWith cause (items.foldlM step state) := by
  induction items generalizing state with
  | nil => exact ok state
  | cons item items ih => exact (fails state item).bind fun next _ => ih next

theorem mapM {step : α → Except ε β} (fails : ∀ item, FailsWith cause (step item))
    (items : List α) : FailsWith cause (items.mapM step) := by
  induction items with
  | nil => exact ok []
  | cons item items ih =>
    rw [List.mapM_cons]
    exact (fails item).bind fun value _ => ih.bind fun values _ => ok (value :: values)

end FailsWith

end ColumnCalc
