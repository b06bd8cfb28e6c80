/-!
# Quoted text in JSON

A JSON string is written between quotes.  This file writes a text in that form
and reads the characters between two quotes back.

The writer escapes what it has to: quotes, backslashes and control characters
below U+0020, by a short escape where there is one.  The reader takes every
escape of the JSON grammar.  It reads in two steps, first to characters and
UTF-16 code units and then to a text, because code units have to come as
characters or surrogate pairs for the string to denote a text.
-/

namespace InventoryGraph.Json

/-! ## Writing -/

/-- The lower-case hexadecimal digit of a number below sixteen. -/
def hexDigit (value : Nat) : Char :=
  Nat.digitChar value

/-- How a character is written between quotes. -/
def writeChar (c : Char) : List Char :=
  if c = '"' then ['\\', '"']
  else if c = '\\' then ['\\', '\\']
  else if c = '\x08' then ['\\', 'b']
  else if c = '\t' then ['\\', 't']
  else if c = '\n' then ['\\', 'n']
  else if c = '\x0c' then ['\\', 'f']
  else if c = '\r' then ['\\', 'r']
  else if c.toNat < 0x20 then
    ['\\', 'u', '0', '0', hexDigit (c.toNat / 16), hexDigit (c.toNat % 16)]
  else [c]

/-- A text in quotes. -/
def quote (text : String) : String :=
  String.ofList ('"' :: text.toList.flatMap writeChar ++ ['"'])

/-! ## Reading -/

/-- A part of a string: a character that stands for itself or a code unit given
by its number. -/
inductive Piece where
  | char (c : Char)
  | unit (value : Nat)
  deriving DecidableEq, Repr

/-- The value of a hexadecimal digit of either case. -/
def hexValue? (c : Char) : Option Nat :=
  if '0' ≤ c ∧ c ≤ '9' then some (c.toNat - '0'.toNat)
  else if 'a' ≤ c ∧ c ≤ 'f' then some (c.toNat - 'a'.toNat + 10)
  else if 'A' ≤ c ∧ c ≤ 'F' then some (c.toNat - 'A'.toNat + 10)
  else none

/-- The code unit that four hexadecimal digits give. -/
def codeUnit? (a b c d : Char) : Option Nat := do
  let a ← hexValue? a
  let b ← hexValue? b
  let c ← hexValue? c
  let d ← hexValue? d
  return ((a * 16 + b) * 16 + c) * 16 + d

/-- The character that a short escape stands for. -/
def shortEscape? : Char → Option Char
  | '"' => some '"'
  | '\\' => some '\\'
  | '/' => some '/'
  | 'b' => some '\x08'
  | 'f' => some '\x0c'
  | 'n' => some '\n'
  | 'r' => some '\r'
  | 't' => some '\t'
  | _ => none

/-- The parts of a string, from the characters between its quotes. -/
def pieces? : List Char → Option (List Piece)
  | [] => some []
  | '\\' :: 'u' :: a :: b :: c :: d :: rest =>
      match codeUnit? a b c d with
      | none => none
      | some value => (pieces? rest).map (.unit value :: ·)
  | '\\' :: c :: rest =>
      match shortEscape? c with
      | none => none
      | some c => (pieces? rest).map (.char c :: ·)
  | c :: rest =>
      if c = '\\' || c.toNat < 0x20 then none else (pieces? rest).map (.char c :: ·)

/-- The code units that start a surrogate pair. -/
def isLead (value : Nat) : Bool :=
  0xD800 ≤ value && value < 0xDC00

/-- The code units that end a surrogate pair. -/
def isTrail (value : Nat) : Bool :=
  0xDC00 ≤ value && value < 0xE000

/-- The character of a surrogate pair. -/
def pairChar (lead trail : Nat) : Char :=
  Char.ofNat (0x10000 + (lead - 0xD800) * 0x400 + (trail - 0xDC00))

/-- The text that the parts of a string denote, if every surrogate is paired. -/
def join? : List Piece → Option (List Char)
  | [] => some []
  | .char c :: rest => (join? rest).map (c :: ·)
  | .unit value :: .unit next :: rest =>
      if isLead value then
        if isTrail next then (join? rest).map (pairChar value next :: ·) else none
      else if isTrail value then
        none
      else
        (join? (.unit next :: rest)).map (Char.ofNat value :: ·)
  | .unit value :: rest =>
      if isLead value || isTrail value then
        none
      else
        (join? rest).map (Char.ofNat value :: ·)

end InventoryGraph.Json
