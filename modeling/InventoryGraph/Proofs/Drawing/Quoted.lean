import InventoryGraph.Drawing
import InventoryGraph.Proofs.Split

/-!
# Quoted strings in drawings

Whatever a text is, it can be quoted: in what is written for it every quote is
escaped, the quote behind it is not, and there is no line feed
(`quotable_flatMap_writeChar`).  So nothing of the text stands outside of its string
(`outside_quote`).

Texts are escaped in one pass, which is the same as three replacements one after the
other (`flatMap_writeChar_eq_escapeInTurn`).
-/

namespace InventoryGraph.Drawing

open Escape

/-! ## Escaped text -/

/-- Writes some characters in place of each occurrence of one. -/
def replaceChar (c : Char) (written text : List Char) : List Char :=
  text.flatMap fun other => if other = c then written else [other]

/-- Escapes backslashes, then quotes, then line feeds. -/
def escapeInTurn (text : List Char) : List Char :=
  replaceChar '\n' ['\\', 'n'] <|
    replaceChar '"' ['\\', '"'] <| replaceChar '\\' ['\\', '\\'] text

/-- Escaping in one pass is the same as escaping one kind of character after the
other, backslashes first. -/
theorem flatMap_writeChar_eq_escapeInTurn (text : List Char) :
    text.flatMap writeChar = escapeInTurn text := by
  simp only [escapeInTurn, replaceChar, List.flatMap_assoc]
  congr
  funext c
  unfold writeChar
  split
  · rfl
  split
  · subst c
    rfl
  · rename_i notQuote
    simp [notQuote]

/-- The character that an escape mark with `sign` behind it stands for. -/
def unescape? (sign : Char) : Option Char :=
  if sign = '\\' then some '\\'
  else if sign = '"' then some '"'
  else if sign = 'n' then some '\n'
  else none

/-- A character is written as it is, or as an escape mark with a sign for it behind
that is no line feed. -/
theorem writeChar_cases (c : Char) :
    (c ≠ '\\' ∧ c ≠ '"' ∧ c ≠ '\n' ∧ writeChar c = [c]) ∨
      ∃ sign, sign ≠ '\n' ∧ unescape? sign = some c ∧ writeChar c = ['\\', sign] := by
  unfold writeChar
  split
  · subst c
    exact Or.inr ⟨'\\', by decide, rfl, rfl⟩
  split
  · subst c
    exact Or.inr ⟨'"', by decide, rfl, rfl⟩
  split
  · subst c
    exact Or.inr ⟨'n', by decide, rfl, rfl⟩
  · rename_i notMark notQuote notNewline
    exact Or.inl ⟨notMark, notQuote, notNewline, rfl⟩

/-- A text that can stand in a quoted string on one line. -/
structure Quotable (text : List Char) : Prop where
  /-- Each quote in it is escaped. -/
  unbroken : Unbroken '"' text
  /-- The quote behind it is not escaped. -/
  closed : isOpen text = false
  oneLine : '\n' ∉ text

theorem quotable_flatMap_writeChar (text : List Char) : Quotable (text.flatMap writeChar) := by
  have quote_ne_mark : '"' ≠ '\\' := by decide
  induction text with
  | nil => exact ⟨unbroken_of_not_mem List.not_mem_nil, rfl, List.not_mem_nil⟩
  | cons c rest ih =>
      rw [List.flatMap_cons]
      rcases writeChar_cases c with
        ⟨notMark, notQuote, notNewline, plain⟩ | ⟨sign, notNewline, _, escaped⟩
      · rw [plain, List.singleton_append]
        constructor
        · exact (unbroken_cons_iff notMark _).mpr ⟨notQuote, ih.unbroken⟩
        · rw [isOpen_cons notMark, ih.closed]
        · simpa [ih.oneLine] using notNewline.symm
      · rw [escaped, List.cons_append, List.singleton_append]
        constructor
        · exact (unbroken_escaped_iff quote_ne_mark sign _).mpr ih.unbroken
        · rw [isOpen_escaped, ih.closed]
        · simpa [ih.oneLine] using notNewline.symm

theorem newline_not_mem_quote (text : String) : '\n' ∉ (quote text).toList := by
  have oneLine := (quotable_flatMap_writeChar text.toList).oneLine
  simp only [quote, String.toList_ofList, List.cons_append, List.mem_cons, List.mem_append]
  simp [oneLine]

/-! ## Text around strings -/

mutual

/-- What stands outside of the quoted strings of a text. -/
def outside : List Char → List Char
  | [] => []
  | c :: rest => if c = '"' then behindQuote rest else c :: outside rest

/-- What stands outside of the quoted strings behind a quote that starts one. -/
def behindQuote : List Char → List Char
  | [] => []
  | ['\\'] => []
  | '\\' :: _ :: rest => behindQuote rest
  | c :: rest => if c = '"' then outside rest else behindQuote rest

end

theorem behindQuote_cons {c : Char} (notMark : c ≠ '\\') (rest : List Char) :
    behindQuote (c :: rest) = if c = '"' then outside rest else behindQuote rest := by
  simp [behindQuote, notMark]

/-- A string goes on to the quote behind its text. -/
theorem Quotable.behindQuote_append {text : List Char} (quotable : Quotable text)
    (rest : List Char) : behindQuote (text ++ '"' :: rest) = outside rest := by
  have unbroken := quotable.unbroken
  have closed := quotable.closed
  clear quotable
  induction text using unit_induction with
  | nil => exact (behindQuote_cons (by decide) rest).trans (if_pos rfl)
  | mark => contradiction
  | escaped c text ih =>
      rw [isOpen_escaped] at closed
      rw [unbroken_escaped_iff (by decide)] at unbroken
      rw [List.cons_append, List.cons_append, behindQuote, ih unbroken closed]
  | plain c text notMark ih =>
      rw [isOpen_cons notMark] at closed
      rw [unbroken_cons_iff notMark] at unbroken
      rw [List.cons_append, behindQuote_cons notMark, if_neg unbroken.1, ih unbroken.2 closed]

theorem outside_quote (text : String) (rest : List Char) :
    outside ((quote text).toList ++ rest) = outside rest := by
  have parts : (quote text).toList ++ rest =
      '"' :: (text.toList.flatMap writeChar ++ '"' :: rest) := by
    simp [quote]
  rw [parts, outside, if_pos rfl, (quotable_flatMap_writeChar _).behindQuote_append]

theorem outside_append {text : List Char} (noQuote : '"' ∉ text) (rest : List Char) :
    outside (text ++ rest) = text ++ outside rest := by
  induction text with
  | nil => rfl
  | cons c text ih =>
      rw [List.mem_cons, not_or] at noQuote
      rw [List.cons_append, outside, if_neg (Ne.symm noQuote.1), ih noQuote.2, List.cons_append]

end InventoryGraph.Drawing
