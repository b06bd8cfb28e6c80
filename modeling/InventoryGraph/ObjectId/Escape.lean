/-!
# Escaped text

The values of an object id may hold any characters, while `,` and `=` separate
the parts of its text form.  A backslash in front of a character takes that
meaning away.  This file holds the writer and the reader of escaped values and
the split of a text at the delimiters that are not escaped.

The writer escapes exactly the reserved characters and the reader accepts no
other escape.  Main statement: reading undoes writing (`unescape_escape`).
-/

namespace InventoryGraph.Escape

/-- The characters that carry meaning in the text of an id: the escape mark
itself and the two delimiters. -/
def isReserved (c : Char) : Bool :=
  c = '\\' || c = ',' || c = '='

/-- Writes a value with a backslash in front of each reserved character. -/
def escape : List Char → List Char
  | [] => []
  | c :: rest =>
      if isReserved c then '\\' :: c :: escape rest else c :: escape rest

/-- What can be wrong with an escaped value. -/
inductive Fault where
  /-- The value ends right after an escape mark. -/
  | dangling
  /-- The escape mark stands before a character that needs none. -/
  | invalid (escaped : Char)
  deriving DecidableEq, Repr

/-- Reads an escaped value and reports the leftmost fault. -/
def unescape : List Char → Except Fault (List Char)
  | [] => .ok []
  | ['\\'] => .error .dangling
  | '\\' :: c :: rest =>
      if isReserved c then (unescape rest).map (c :: ·) else .error (.invalid c)
  | c :: rest => (unescape rest).map (c :: ·)

/-- Puts `front` before the first part of a split text. -/
def prepend (front : List Char) : List (List Char) → List (List Char)
  | [] => [front]
  | part :: parts => (front ++ part) :: parts

/-- Splits a text at every `delimiter` that is not escaped.  Escapes stay in the
parts as they are written, and a text without delimiter is its own only part. -/
def split (delimiter : Char) : List Char → List (List Char)
  | [] => [[]]
  | ['\\'] => [['\\']]
  | '\\' :: c :: rest => prepend ['\\', c] (split delimiter rest)
  | c :: rest =>
      if c = delimiter then
        [] :: split delimiter rest
      else
        prepend [c] (split delimiter rest)

/-! ## Reading what is written -/

@[simp]
theorem escape_nil : escape [] = [] :=
  rfl

theorem escape_cons_of_reserved {c : Char} (reserved : isReserved c = true)
    (rest : List Char) : escape (c :: rest) = '\\' :: c :: escape rest := by
  simp [escape, reserved]

theorem escape_cons_of_plain {c : Char} (plain : isReserved c = false)
    (rest : List Char) : escape (c :: rest) = c :: escape rest := by
  simp [escape, plain]

@[simp]
theorem isReserved_mark : isReserved '\\' = true :=
  rfl

theorem ne_mark_of_plain {c : Char} (plain : isReserved c = false) : c ≠ '\\' := by
  rintro rfl
  simp at plain

/-- Reading an escaped value gives the value back. -/
theorem unescape_escape (value : List Char) : unescape (escape value) = .ok value := by
  induction value with
  | nil => rfl
  | cons c rest ih =>
      cases reserved : isReserved c with
      | true => simp [escape_cons_of_reserved reserved, unescape, reserved, ih, Except.map]
      | false =>
          simp [escape_cons_of_plain reserved, unescape, ne_mark_of_plain reserved, ih,
            Except.map]

end InventoryGraph.Escape
