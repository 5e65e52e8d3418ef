/-
**Printed JSON is read back.**

The reader is followed from one state to the next while it goes over a printed text (`readOn`):
white space leaves it where it is, a mark or a string is one step, and a whole value takes it from
where a value may start (`Awaits`) to behind that value, whatever follows.

* `readOn_space`, `readOn_token` — one character of white space, one token.
* `reads_items`, `reads_members` — what is printed behind the first item or member.
* `reads_numberless` — a whole value, by induction on it.
* `read_print` — a value without numbers is read back from its printed form.
-/

import ColumnCalc.Json.Printer
import ColumnCalc.Json.Reader

namespace ColumnCalc.Json

namespace Reading

/-- The state behind a text that is read on from a state. -/
def readOn (reading : Reading) (text : List Char) : Option Reading :=
  (tokens? text).bind fun tokens => tokens.foldlM step? reading

variable {reading : Reading} {frames : List Frame}

/-- White space is passed over. -/
theorem readOn_space {c : Char} (space : isSpace c = true) (reading : Reading)
    (rest : List Char) : reading.readOn (c :: rest) = reading.readOn rest := by
  rw [readOn, tokens?, if_pos space]
  rfl

/-- **A token is one step.** -/
theorem readOn_token {c : Char} {text rest : List Char} {token : Token}
    (solid : isSpace c = false) (read : readToken? (c :: text) = some (token, rest))
    (reading : Reading) :
    reading.readOn (c :: text) = reading.step? token >>= (·.readOn rest) := by
  have tokens : tokens? (c :: text) = (tokens? rest).map (token :: ·) := by
    rw [tokens?, if_neg (by simp [solid])]
    split
    · rename_i found
      cases read.symm.trans found
      rfl
    · rename_i found
      cases read.symm.trans found
  unfold readOn
  rw [tokens]
  cases tokens? rest with
  | none => cases reading.step? token <;> rfl
  | some behind => exact List.foldlM_cons

theorem readOn_spaces (count : Nat) (reading : Reading) (rest : List Char) :
    reading.readOn (List.replicate count ' ' ++ rest) = reading.readOn rest := by
  induction count with
  | zero => rfl
  | succ count ih =>
    rw [List.replicate_succ, List.cons_append, readOn_space rfl, ih]

/-- The start of a new line is passed over. -/
theorem readOn_lineBreak (depth : Nat) (reading : Reading) (rest : List Char) :
    reading.readOn (lineBreak depth ++ rest) = reading.readOn rest := by
  rw [lineBreak, List.cons_append, readOn_space rfl, readOn_spaces]

/-- A punctuation mark is one step. -/
theorem readOn_mark {c : Char} (token : Token) (mark : punctuation? c = some token)
    (reading : Reading) (rest : List Char) :
    reading.readOn (c :: rest) = reading.step? token >>= (·.readOn rest) := by
  have solid : isSpace c = false := by
    unfold punctuation? at mark
    split at mark <;> first | rfl | cases mark
  refine readOn_token solid ?_ reading
  rw [readToken?, mark]

/-- A word is one step. -/
theorem readOn_word {word : List Char} (token : Token) (isWord : (word, token) ∈ words)
    (reading : Reading) (rest : List Char) :
    reading.readOn (word ++ rest) = reading.step? token >>= (·.readOn rest) := by
  simp only [words, List.mem_cons, Prod.mk.injEq, List.not_mem_nil, or_false] at isWord
  obtain ⟨rfl, rfl⟩ | ⟨rfl, rfl⟩ | ⟨rfl, rfl⟩ := isWord <;> exact readOn_token rfl rfl reading

end Reading

/-- A quote starts a string. -/
theorem readToken_quote (text : List Char) :
    readToken? ('"' :: text) = (readString? text).map fun (pieces, rest) =>
      (.string ((joinPieces? pieces).map String.ofList), rest) := by
  have noMark : punctuation? '"' = none := by decide
  rw [readToken?, noMark]
  exact if_pos rfl

/-- Half of a surrogate pair, as it is printed for a string without a text. -/
theorem printText_none :
    printText none = ['"', '\\', 'u', 'd', '8', '0', '0', '"'] := by
  decide

theorem printText_some (text : String) :
    printText (some text) = '"' :: (text.toList.flatMap escapeChar ++ ['"']) := rfl

/-- **A printed string is read back as one token**, also one without a text. -/
theorem readToken_printText (text : StringText) (rest : List Char) :
    readToken? (printText text ++ rest) = some (.string text, rest) := by
  cases text with
  | none =>
    have closed : readString? ('"' :: rest) = some ([], rest) := by rw [readString?, if_pos rfl]
    have half : readEscape? ('u' :: 'd' :: '8' :: '0' :: '0' :: '"' :: rest)
        = some (.half 0xD800, '"' :: rest) := rfl
    have joined : joinPieces? [.half 0xD800] = none := by decide
    simp only [printText_none, List.cons_append, List.nil_append, readToken_quote,
      readString_escaped half, closed, Option.map_some, joined, Option.map_none]
  | some text =>
    have body := readString_escape text.toList rest
    simp only [printText_some, List.cons_append, List.append_assoc, List.nil_append,
      readToken_quote, body, Option.map_some, joinPieces_char, String.ofList_toList]

/-- A printed string starts with a quote. -/
theorem printText_eq (text : StringText) : ∃ rest, printText text = '"' :: rest := by
  cases text with
  | none => exact ⟨_, printText_none⟩
  | some text => exact ⟨_, rfl⟩

/-- What is printed between a key and its value. -/
theorem colon_toList : ": ".toList = [':', ' '] := by decide

namespace Reading

/-- A printed string is one step. -/
theorem readOn_printText (text : StringText) (reading : Reading) (rest : List Char) :
    reading.readOn (printText text ++ rest) = reading.step? (.string text) >>= (·.readOn rest) := by
  have read := readToken_printText text rest
  obtain ⟨behind, same⟩ := printText_eq text
  rw [same, List.cons_append] at read ⊢
  exact readOn_token rfl read reading

/-- **A value may start here**; it belongs to the frames. An array may end here as well. -/
def Awaits (reading : Reading) (frames : List Frame) : Prop :=
  ∀ token, token ≠ .rightBracket → reading.step? token = startValue? frames token

theorem awaits_needValue (frames : List Frame) : (needValue frames).Awaits frames :=
  fun _ _ => rfl

theorem awaits_itemOrEnd (frames : List Frame) :
    (itemOrEnd frames).Awaits (.array [] :: frames) :=
  fun _ noEnd => if_neg noEnd

end Reading

open Reading

/-- **A value's printed form is read as that value**, at whichever depth it stands and whatever
follows it. -/
def Reads (value : Json) : Prop :=
  ∀ (depth : Nat) (reading : Reading) (frames : List Frame), reading.Awaits frames →
    ∀ rest, reading.readOn (printAt depth value ++ rest) = (behindValue value frames).readOn rest

/-- The items behind the first one are read up to the end of their array. -/
theorem reads_items {items : List Json} (reads : ∀ item ∈ items, Reads item) (depth : Nat)
    (value : Json) (held : List Json) (frames : List Frame) (rest : List Char) :
    (behindValue value (.array held :: frames)).readOn (printItems depth items ++ rest)
      = (behindValue (.array ((value :: held).reverse ++ items)) frames).readOn rest := by
  induction items generalizing value held with
  | nil =>
    rw [printItems, List.append_assoc, readOn_lineBreak, List.append_nil]
    exact readOn_mark .rightBracket rfl _ rest
  | cons item items ih =>
    have first := reads item (.head _) (depth + 1) _ _
      (awaits_needValue (.array (value :: held) :: frames)) (printItems depth items ++ rest)
    have others := ih (fun other member => reads other (.tail _ member)) item (value :: held)
    rw [printItems, List.cons_append, readOn_mark .comma rfl, List.append_assoc,
      List.append_assoc]
    show (needValue (.array (value :: held) :: frames)).readOn _ = _
    rw [readOn_lineBreak, first, others]
    simp only [List.reverse_cons, List.append_assoc, List.cons_append, List.nil_append]

/-- The members behind the first one are read up to the end of their object. -/
theorem reads_members {members : List (StringText × Json)}
    (reads : ∀ member ∈ members, Reads member.2) (depth : Nat) (key : StringText) (value : Json)
    (held : List (StringText × Json)) (frames : List Frame) (rest : List Char) :
    (behindValue value (.object held key :: frames)).readOn (printMembers depth members ++ rest)
      = (behindValue (.object (((key, value) :: held).reverse ++ members)) frames).readOn rest := by
  induction members generalizing key value held with
  | nil =>
    rw [printMembers, List.append_assoc, readOn_lineBreak, List.append_nil]
    exact readOn_mark .rightBrace rfl _ rest
  | cons member members ih =>
    obtain ⟨name, content⟩ := member
    have first := reads (name, content) (.head _) (depth + 1) _ _
      (awaits_needValue (.object ((key, value) :: held) name :: frames))
      (printMembers depth members ++ rest)
    have others := ih (fun other member => reads other (.tail _ member)) name content
      ((key, value) :: held)
    rw [printMembers, List.cons_append, readOn_mark .comma rfl]
    simp only [colon_toList, List.append_assoc, List.cons_append, List.nil_append]
    show (needKey ((key, value) :: held) frames).readOn _ = _
    rw [readOn_lineBreak, readOn_printText]
    show (needColon ((key, value) :: held) name frames).readOn (':' :: ' ' :: _) = _
    rw [readOn_mark .colon rfl]
    show (needValue (.object ((key, value) :: held) name :: frames)).readOn (' ' :: _) = _
    rw [readOn_space rfl, first, others]
    simp only [List.reverse_cons, List.append_assoc, List.cons_append, List.nil_append]

/-- A value in which no number stands. -/
inductive Numberless : Json → Prop where
  | null : Numberless .null
  | bool (value : Bool) : Numberless (.bool value)
  | string (text : StringText) : Numberless (.string text)
  | array {items : List Json} (each : ∀ item ∈ items, Numberless item) : Numberless (.array items)
  | object {members : List (StringText × Json)}
      (each : ∀ member ∈ members, Numberless member.2) : Numberless (.object members)

/-- **A value without numbers is read as it was printed.** -/
theorem reads_numberless {value : Json} (numberless : Numberless value) : Reads value := by
  induction numberless with
  | null =>
    intro depth reading frames awaits rest
    rw [printAt, readOn_word .null (.head _), awaits .null nofun]
    rfl
  | bool value =>
    intro depth reading frames awaits rest
    cases value with
    | true =>
      rw [printAt, readOn_word (.bool true) (.tail _ (.head _)),
        awaits (.bool true) nofun]
      rfl
    | false =>
      rw [printAt, readOn_word (.bool false) (.tail _ (.tail _ (.head _))),
        awaits (.bool false) nofun]
      rfl
  | string text =>
    intro depth reading frames awaits rest
    rw [printAt, readOn_printText, awaits (.string text) nofun]
    rfl
  | @array items _ ih =>
    intro depth reading frames awaits rest
    cases items with
    | nil =>
      show reading.readOn ('[' :: ']' :: rest) = _
      rw [readOn_mark .leftBracket rfl, awaits .leftBracket nofun]
      show (itemOrEnd frames).readOn (']' :: rest) = _
      rw [readOn_mark .rightBracket rfl]
      rfl
    | cons first items =>
      have whole := ih first (.head _) (depth + 1) _ _ (awaits_itemOrEnd frames)
        (printItems depth items ++ rest)
      rw [printAt, List.cons_append, readOn_mark .leftBracket rfl, awaits .leftBracket nofun,
        List.append_assoc, List.append_assoc]
      show (itemOrEnd frames).readOn _ = _
      rw [readOn_lineBreak, whole, reads_items fun item member => ih item (.tail _ member)]
      rfl
  | @object members _ ih =>
    intro depth reading frames awaits rest
    cases members with
    | nil =>
      show reading.readOn ('\x7b' :: '\x7d' :: rest) = _
      rw [readOn_mark .leftBrace rfl, awaits .leftBrace nofun]
      show (keyOrEnd frames).readOn ('\x7d' :: rest) = _
      rw [readOn_mark .rightBrace rfl]
      rfl
    | cons first members =>
      obtain ⟨key, value⟩ := first
      have whole := ih (key, value) (.head _) (depth + 1) _ _
        (awaits_needValue (.object [] key :: frames)) (printMembers depth members ++ rest)
      rw [printAt, List.cons_append, readOn_mark .leftBrace rfl, awaits .leftBrace nofun]
      simp only [colon_toList, List.append_assoc, List.cons_append, List.nil_append]
      show (keyOrEnd frames).readOn _ = _
      rw [readOn_lineBreak, readOn_printText]
      show (needColon [] key frames).readOn (':' :: ' ' :: _) = _
      rw [readOn_mark .colon rfl]
      show (needValue (.object [] key :: frames)).readOn (' ' :: _) = _
      rw [readOn_space rfl, whole, reads_members fun member isMember => ih member (.tail _ isMember)]
      rfl

/-- **A value without numbers is read back from its printed form.** -/
theorem read_print {value : Json} (numberless : Numberless value) :
    read? value.print = some value := by
  have reads := reads_numberless numberless 1 (needValue []) [] (awaits_needValue []) []
  have same : read? value.print = (needValue []).readOn value.print >>= result? := by
    unfold read? readOn
    cases tokens? value.print <;> rfl
  rw [List.append_nil] at reads
  rw [same]
  show (needValue []).readOn (printAt 1 value) >>= result? = _
  rw [reads, readOn, tokens?]
  rfl

end ColumnCalc.Json
