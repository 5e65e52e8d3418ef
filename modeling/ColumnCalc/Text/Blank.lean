/-
**White space and trimming.**

White space is the Unicode property White_Space. `trim` removes it at both ends, and
`trim_eq_nil_iff` says that nothing is left exactly of a text made of white space only, `trim_eq_self`
that a text without white space is left as it is.
-/

namespace ColumnCalc.Text

/-- White space: the Unicode property White_Space, all twenty-five code points of it. -/
def isBlank (c : Char) : Bool :=
  let code := c.toNat
  (0x09 ≤ code && code ≤ 0x0D) || code == 0x20 || code == 0x85 || code == 0xA0 ||
    code == 0x1680 || (0x2000 ≤ code && code ≤ 0x200A) || code == 0x2028 || code == 0x2029 ||
    code == 0x202F || code == 0x205F || code == 0x3000

/-- The text without white space at its end. -/
def trimEnd : List Char → List Char
  | [] => []
  | c :: rest =>
    match trimEnd rest with
    | [] => if isBlank c then [] else [c]
    | kept => c :: kept

/-- The text without white space at either end. -/
def trim (text : List Char) : List Char :=
  trimEnd (text.dropWhile isBlank)

theorem trimEnd_eq_nil_iff (text : List Char) :
    trimEnd text = [] ↔ text.all isBlank = true := by
  induction text with
  | nil => simp [trimEnd]
  | cons c rest hypothesis =>
    cases kept : trimEnd rest with
    | nil => by_cases blank : isBlank c <;> simp_all [trimEnd]
    | cons first more => simp_all [trimEnd]

/-- Only white space trims to nothing. -/
theorem trim_eq_nil_iff (text : List Char) : trim text = [] ↔ text.all isBlank = true := by
  rw [trim, trimEnd_eq_nil_iff]
  induction text with
  | nil => simp
  | cons c rest hypothesis => by_cases blank : isBlank c <;> simp_all

theorem trimEnd_eq_self {text : List Char} (solid : ∀ c ∈ text, isBlank c = false) :
    trimEnd text = text := by
  induction text with
  | nil => rfl
  | cons c rest hypothesis =>
    rw [trimEnd, hypothesis fun other member => solid other (.tail _ member)]
    cases rest with
    | nil => simp [solid c (.head _)]
    | cons _ _ => rfl

/-- A text without white space is left as it is. -/
theorem trim_eq_self {text : List Char} (solid : ∀ c ∈ text, isBlank c = false) :
    trim text = text := by
  have kept : text.dropWhile isBlank = text := by
    cases text with
    | nil => rfl
    | cons c rest => simp [solid c (.head _)]
  rw [trim, kept, trimEnd_eq_self solid]

/-- A string without white space at either end. -/
def trimString (text : String) : String :=
  String.ofList (trim text.toList)

end ColumnCalc.Text
