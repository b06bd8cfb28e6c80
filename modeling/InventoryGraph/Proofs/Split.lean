import InventoryGraph.ObjectId.Escape
import Mathlib.Algebra.Ring.Parity
import Mathlib.Data.List.DropRight

/-!
# Splitting at unescaped delimiters

The split of a text takes an escape mark and the character behind it as one
unit.  This file says what that means without following the scanner: a text is
open when it ends right after an escape mark, and a delimiter counts when the
text in front of it is not open.

The parts of a split are the only list of parts that join to the text, hold no
delimiter that counts, and are not open, the last one apart (`split_eq_iff`).

A text is open when it ends with an odd number of escape marks
(`isOpen_iff_odd_marksAtEnd`), so the scanner can be left out altogether: which lists
are lists of parts is a matter of runs of escape marks (`Cut`).

Main statement: for a given delimiter, splitting and joining undo each other between
texts and lists of parts (`split_inverts_join`).
-/

namespace InventoryGraph.Escape

/-- Whether a text ends right after an escape mark. -/
def isOpen : List Char → Bool
  | [] => false
  | ['\\'] => true
  | '\\' :: _ :: rest => isOpen rest
  | _ :: rest => isOpen rest

/-- Each `delimiter` in a text is escaped. -/
def Unbroken (delimiter : Char) (text : List Char) : Prop :=
  ∀ front rest, text = front ++ delimiter :: rest → isOpen front = true

/-- A list of parts is the split of a text at the delimiters that are not
escaped. -/
structure IsSplit (delimiter : Char) (text : List Char) (parts : List (List Char)) : Prop where
  nonempty : parts ≠ []
  joined : [delimiter].intercalate parts = text
  unbroken : ∀ part ∈ parts, Unbroken delimiter part
  closed : ∀ part ∈ parts.dropLast, isOpen part = false

/-- Induction over a text unit by unit: an escape mark together with the
character behind it is one step. -/
@[elab_as_elim]
theorem unit_induction {motive : List Char → Prop} (nil : motive [])
    (mark : motive ['\\'])
    (escaped : ∀ c rest, motive rest → motive ('\\' :: c :: rest))
    (plain : ∀ c rest, c ≠ '\\' → motive rest → motive (c :: rest)) :
    ∀ text, motive text
  | [] => nil
  | [c] => by
      by_cases isMark : c = '\\'
      · exact isMark ▸ mark
      · exact plain c [] isMark nil
  | c :: next :: rest => by
      by_cases isMark : c = '\\'
      · exact isMark ▸ escaped next rest (unit_induction nil mark escaped plain rest)
      · exact plain c (next :: rest) isMark
          (unit_induction nil mark escaped plain (next :: rest))

/-! ## Open texts -/

@[simp]
theorem isOpen_nil : isOpen [] = false :=
  rfl

@[simp]
theorem isOpen_mark : isOpen ['\\'] = true :=
  rfl

@[simp]
theorem isOpen_escaped (c : Char) (rest : List Char) :
    isOpen ('\\' :: c :: rest) = isOpen rest :=
  rfl

theorem isOpen_cons {c : Char} (plain : c ≠ '\\') (rest : List Char) :
    isOpen (c :: rest) = isOpen rest := by
  simp [isOpen, plain]

/-- Behind a text that is not open, another one ends as it does alone. -/
theorem isOpen_append {front : List Char} (closed : isOpen front = false) (rest : List Char) :
    isOpen (front ++ rest) = isOpen rest := by
  induction front using unit_induction with
  | nil => rfl
  | mark => contradiction
  | escaped c front ih => exact ih closed
  | plain c front notMark ih =>
      rw [isOpen_cons notMark] at closed
      rw [List.cons_append, isOpen_cons notMark, ih closed]

/-! ## Runs of escape marks -/

/-- How many escape marks a text ends with. -/
def marksAtEnd (text : List Char) : Nat :=
  (text.rtakeWhile (· = '\\')).length

theorem isOpen_concat (text : List Char) (c : Char) :
    isOpen (text ++ [c]) = (decide (c = '\\') && !isOpen text) := by
  induction text using unit_induction with
  | nil =>
      by_cases isMark : c = '\\'
      · simp [isMark]
      · simp [isMark, isOpen_cons]
  | mark => simp
  | escaped first rest ih => simpa using ih
  | plain first rest plain ih => rw [List.cons_append, isOpen_cons plain, isOpen_cons plain, ih]

/-- A text ends right after an escape mark when it ends with an odd number of them. -/
theorem isOpen_iff_odd_marksAtEnd {text : List Char} :
    isOpen text = true ↔ Odd (marksAtEnd text) := by
  induction text using List.reverseRecOn with
  | nil => simp [marksAtEnd]
  | append_singleton text c ih =>
      rw [isOpen_concat, marksAtEnd]
      by_cases isMark : c = '\\'
      · rw [List.rtakeWhile_concat_pos _ _ _ (by simpa using isMark), List.length_append,
          ← marksAtEnd, List.length_singleton, Nat.odd_add_one, ← ih]
        simp [isMark]
      · rw [List.rtakeWhile_concat_neg _ _ _ (by simpa using isMark)]
        simp [isMark]

/-! ## Texts without a delimiter that counts -/

variable {delimiter : Char}

theorem unbroken_of_not_mem {text : List Char} (absent : delimiter ∉ text) :
    Unbroken delimiter text := by
  rintro front rest rfl
  simp at absent

/-- An escaped character does not count. -/
theorem unbroken_escaped_iff (notMark : delimiter ≠ '\\') (c : Char) (rest : List Char) :
    Unbroken delimiter ('\\' :: c :: rest) ↔ Unbroken delimiter rest := by
  constructor
  · rintro unbroken front behind rfl
    simpa using unbroken ('\\' :: c :: front) behind rfl
  · intro unbroken front behind cut
    match front with
    | [] =>
        simp only [List.nil_append, List.cons.injEq] at cut
        exact absurd cut.1.symm notMark
    | [first] =>
        simp only [List.cons_append, List.nil_append, List.cons.injEq] at cut
        simp [← cut.1]
    | first :: second :: front =>
        simp only [List.cons_append, List.cons.injEq] at cut
        rcases cut with ⟨rfl, _, rest_eq⟩
        simpa using unbroken front behind rest_eq

/-- A character that is no escape mark counts if it is the delimiter. -/
theorem unbroken_cons_iff {c : Char} (plain : c ≠ '\\') (rest : List Char) :
    Unbroken delimiter (c :: rest) ↔ c ≠ delimiter ∧ Unbroken delimiter rest := by
  constructor
  · intro unbroken
    constructor
    · rintro rfl
      simpa using unbroken [] rest rfl
    · rintro front behind rfl
      simpa [isOpen_cons plain] using unbroken (c :: front) behind rfl
  · rintro ⟨different, unbroken⟩ front behind cut
    cases front with
    | nil =>
        simp only [List.nil_append, List.cons.injEq] at cut
        exact absurd cut.1 different
    | cons first front =>
        simp only [List.cons_append, List.cons.injEq] at cut
        rcases cut with ⟨rfl, rest_eq⟩
        simpa [isOpen_cons plain] using unbroken front behind rest_eq

/-- Behind a text that is not open, another one breaks as it does alone. -/
theorem unbroken_append (notMark : delimiter ≠ '\\') {front : List Char}
    (closed : isOpen front = false) (rest : List Char) :
    Unbroken delimiter (front ++ rest) ↔
      Unbroken delimiter front ∧ Unbroken delimiter rest := by
  have nothing : Unbroken delimiter [] := unbroken_of_not_mem List.not_mem_nil
  induction front using unit_induction with
  | nil => simp [nothing]
  | mark => contradiction
  | escaped c front ih =>
      simp only [List.cons_append, unbroken_escaped_iff notMark]
      exact ih closed
  | plain c front plain ih =>
      rw [isOpen_cons plain] at closed
      simp only [List.cons_append, unbroken_cons_iff plain, ih closed, and_assoc]

/-! ## The split -/

@[simp]
theorem split_nil : split delimiter [] = [[]] :=
  rfl

@[simp]
theorem split_mark : split delimiter ['\\'] = [['\\']] :=
  rfl

@[simp]
theorem split_escaped (c : Char) (rest : List Char) :
    split delimiter ('\\' :: c :: rest) = prepend ['\\', c] (split delimiter rest) :=
  rfl

theorem split_cons {c : Char} (plain : c ≠ '\\') (rest : List Char) :
    split delimiter (c :: rest) =
      if c = delimiter then [] :: split delimiter rest
      else prepend [c] (split delimiter rest) := by
  simp [split, plain]

/-- A split goes on unit by unit: what stands in front of all text stands in
front of the first part. -/
theorem IsSplit.prepend {front text : List Char} {parts : List (List Char)}
    (isSplit : IsSplit delimiter text parts)
    (unbroken : ∀ rest, Unbroken delimiter rest → Unbroken delimiter (front ++ rest))
    (closed : isOpen front = false) :
    IsSplit delimiter (front ++ text) (Escape.prepend front parts) := by
  rcases isSplit with ⟨nonempty, joined, partsUnbroken, partsClosed⟩
  match parts with
  | [] => contradiction
  | [part] =>
      constructor
      · simp [Escape.prepend]
      · simpa [Escape.prepend] using joined
      · simpa [Escape.prepend] using unbroken part (partsUnbroken part (by simp))
      · simp [Escape.prepend]
  | part :: next :: parts =>
      constructor
      · simp [Escape.prepend]
      · simpa [Escape.prepend] using joined
      · simp only [Escape.prepend, List.forall_mem_cons] at partsUnbroken ⊢
        exact ⟨unbroken part partsUnbroken.1, partsUnbroken.2⟩
      · simp only [Escape.prepend, List.dropLast_cons_cons, List.forall_mem_cons,
          isOpen_append closed] at partsClosed ⊢
        exact partsClosed

/-- A delimiter that counts starts a new part. -/
theorem IsSplit.cons_delimiter {text : List Char} {parts : List (List Char)}
    (isSplit : IsSplit delimiter text parts) :
    IsSplit delimiter (delimiter :: text) ([] :: parts) := by
  rcases isSplit with ⟨nonempty, joined, unbroken, closed⟩
  rcases List.exists_cons_of_ne_nil nonempty with ⟨part, parts, rfl⟩
  constructor
  · simp
  · simpa using joined
  · rw [List.forall_mem_cons]
    exact ⟨unbroken_of_not_mem List.not_mem_nil, unbroken⟩
  · rw [List.dropLast_cons_cons, List.forall_mem_cons]
    exact ⟨isOpen_nil, closed⟩

/-- The parts of a split are a split. -/
theorem isSplit_split (notMark : delimiter ≠ '\\') (text : List Char) :
    IsSplit delimiter text (split delimiter text) := by
  induction text using unit_induction with
  | nil =>
      exact ⟨by simp, rfl, by simp [unbroken_of_not_mem], by simp⟩
  | mark =>
      exact ⟨by simp, rfl, by simp [unbroken_of_not_mem, notMark], by simp⟩
  | escaped c rest ih =>
      have closed : isOpen ['\\', c] = false := rfl
      exact ih.prepend (fun rest => (unbroken_escaped_iff notMark c rest).mpr) closed
  | plain c rest plain ih =>
      rw [split_cons plain]
      by_cases same : c = delimiter
      · subst same
        simpa using ih.cons_delimiter
      · rw [if_neg same]
        have closed : isOpen [c] = false := isOpen_cons plain []
        exact ih.prepend (fun rest unbroken =>
          (unbroken_cons_iff plain rest).mpr ⟨same, unbroken⟩) closed

/-- A text without a delimiter that counts is its own only part. -/
theorem split_of_unbroken (notMark : delimiter ≠ '\\') {text : List Char}
    (unbroken : Unbroken delimiter text) : split delimiter text = [text] := by
  induction text using unit_induction with
  | nil => rfl
  | mark => rfl
  | escaped c rest ih =>
      rw [split_escaped, ih ((unbroken_escaped_iff notMark c rest).mp unbroken)]
      rfl
  | plain c rest plain ih =>
      rcases (unbroken_cons_iff plain rest).mp unbroken with ⟨different, unbroken⟩
      rw [split_cons plain, if_neg different, ih unbroken]
      rfl

/-- The first delimiter that counts ends the first part. -/
theorem split_append_delimiter (notMark : delimiter ≠ '\\') {front : List Char}
    (unbroken : Unbroken delimiter front) (closed : isOpen front = false)
    (rest : List Char) :
    split delimiter (front ++ delimiter :: rest) = front :: split delimiter rest := by
  induction front using unit_induction with
  | nil => simp [split_cons notMark]
  | mark => contradiction
  | escaped c front ih =>
      rw [List.cons_append, List.cons_append, split_escaped,
        ih ((unbroken_escaped_iff notMark c front).mp unbroken) closed]
      rfl
  | plain c front plain ih =>
      rcases (unbroken_cons_iff plain front).mp unbroken with ⟨different, unbroken⟩
      rw [isOpen_cons plain] at closed
      rw [List.cons_append, split_cons plain, if_neg different, ih unbroken closed]
      rfl

/-- The parts of a text at the delimiters that count are determined by the text. -/
theorem IsSplit.split_eq (notMark : delimiter ≠ '\\') {text : List Char}
    {parts : List (List Char)} (isSplit : IsSplit delimiter text parts) :
    split delimiter text = parts := by
  rcases isSplit with ⟨nonempty, joined, unbroken, closed⟩
  subst joined
  induction parts with
  | nil => contradiction
  | cons part parts ih =>
      rw [List.forall_mem_cons] at unbroken
      cases parts with
      | nil =>
          rw [List.intercalate_singleton]
          exact split_of_unbroken notMark unbroken.1
      | cons next parts =>
          rw [List.dropLast_cons_cons, List.forall_mem_cons] at closed
          rw [List.intercalate_cons_cons, List.append_assoc, List.singleton_append,
            split_append_delimiter notMark unbroken.1 closed.1,
            ih (List.cons_ne_nil _ _) unbroken.2 closed.2]

/-- The split of a text is its only list of parts. -/
theorem split_eq_iff (notMark : delimiter ≠ '\\') {text : List Char}
    {parts : List (List Char)} :
    split delimiter text = parts ↔ IsSplit delimiter text parts := by
  constructor
  · rintro rfl
    exact isSplit_split notMark text
  · exact IsSplit.split_eq notMark

/-! ## Lists of parts -/

/-- A list is the parts of some text.  A delimiter in a part stands behind an odd number of
escape marks, and no part but the last ends with an odd number of them. -/
structure Cut (delimiter : Char) (parts : List (List Char)) : Prop where
  nonempty : parts ≠ []
  escaped : ∀ part ∈ parts, ∀ front rest, part = front ++ delimiter :: rest →
    Odd (marksAtEnd front)
  closed : ∀ part ∈ parts.dropLast, ¬Odd (marksAtEnd part)

/-- The split of a text is the list of parts that joins to the text. -/
theorem isSplit_iff_cut {text : List Char} {parts : List (List Char)} :
    IsSplit delimiter text parts ↔
      Cut delimiter parts ∧ [delimiter].intercalate parts = text := by
  constructor
  · rintro ⟨nonempty, joined, unbroken, closed⟩
    refine ⟨⟨nonempty, ?_, ?_⟩, joined⟩
    · intro part member front rest cut
      exact isOpen_iff_odd_marksAtEnd.mp (unbroken part member front rest cut)
    · intro part member odd
      rw [← isOpen_iff_odd_marksAtEnd, closed part member] at odd
      contradiction
  · rintro ⟨⟨nonempty, escaped, closed⟩, joined⟩
    refine ⟨nonempty, joined, ?_, ?_⟩
    · intro part member front rest cut
      exact isOpen_iff_odd_marksAtEnd.mpr (escaped part member front rest cut)
    · intro part member
      have even := closed part member
      rwa [← isOpen_iff_odd_marksAtEnd, Bool.not_eq_true] at even

/-- Splitting at the delimiters that are not escaped and joining with the delimiter undo
each other: every text is split into a list of parts that joins to it, and every list of
parts is what its join is split into. -/
theorem split_inverts_join (notMark : delimiter ≠ '\\') :
    (∀ text, Cut delimiter (split delimiter text) ∧
      [delimiter].intercalate (split delimiter text) = text) ∧
    ∀ parts, Cut delimiter parts →
      split delimiter ([delimiter].intercalate parts) = parts := by
  constructor
  · intro text
    exact isSplit_iff_cut.mp (isSplit_split notMark text)
  · intro parts cut
    have isSplit : IsSplit delimiter ([delimiter].intercalate parts) parts :=
      isSplit_iff_cut.mpr ⟨cut, rfl⟩
    exact isSplit.split_eq notMark

/-- An escaped delimiter and an escaped escape mark at the ends of parts, and an escape
mark at the end of the text. -/
def openEnded : List (List Char) :=
  ["a\\,".toList, "\\\\".toList, "\\".toList]

/-- They are the parts of the text that they join to. -/
theorem openEnded_joined_and_split :
    ',' ≠ '\\' ∧ Cut ',' openEnded ∧
      [','].intercalate openEnded = "a\\,,\\\\,\\".toList ∧
      split ',' ([','].intercalate openEnded) = openEnded := by
  have notMark : ',' ≠ '\\' := by decide
  have unbroken : ∀ part ∈ openEnded, Unbroken ',' part := by
    have nothing : Unbroken ',' [] := unbroken_of_not_mem List.not_mem_nil
    have mark : Unbroken ',' ['\\'] := unbroken_of_not_mem (by decide)
    simp [openEnded, unbroken_escaped_iff, unbroken_cons_iff, nothing, mark]
  have closed : ∀ part ∈ openEnded.dropLast, isOpen part = false := by decide
  have cut : Cut ',' openEnded :=
    (isSplit_iff_cut.mp ⟨List.cons_ne_nil _ _, rfl, unbroken, closed⟩).1
  exact ⟨notMark, cut, rfl, (split_inverts_join notMark).2 openEnded cut⟩

end InventoryGraph.Escape
