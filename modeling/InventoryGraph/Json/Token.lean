import InventoryGraph.Json.Text

/-!
# JSON tokens

A JSON text is a sequence of tokens with blanks between them.  The scan goes
through the text one character at a time and remembers what it is in the middle
of: nothing, a string, a number or a word.  Strings and punctuation end by
themselves; a number or a word ends before the first character that cannot
belong to it.
-/

namespace InventoryGraph.Json

/-- The smallest meaningful parts of a JSON text. -/
inductive Token where
  | openArray
  | closeArray
  | openObject
  | closeObject
  | comma
  | colon
  | null
  | bool (value : Bool)
  | number (literal : String)
  /-- A string with its text, if it has one. -/
  | string (text? : Option String)
  deriving DecidableEq, Repr

/-! ## Numbers -/

/-- The characters of numbers. -/
def isNumeric (c : Char) : Bool :=
  c.isDigit || c = '-' || c = '+' || c = '.' || c = 'e' || c = 'E'

/-- One or more digits and then a text that `next` accepts. -/
def digitsThen (next : List Char → Bool) (chars : List Char) : Bool :=
  !(chars.takeWhile Char.isDigit).isEmpty && next (chars.dropWhile Char.isDigit)

/-- Takes off a sign. -/
def dropSign : List Char → List Char
  | '+' :: rest => rest
  | '-' :: rest => rest
  | rest => rest

/-- Whether a text is empty or the exponent of a number. -/
def isExponent : List Char → Bool
  | [] => true
  | c :: rest => (c = 'e' || c = 'E') && digitsThen List.isEmpty (dropSign rest)

/-- Whether a text is what follows the whole part of a number. -/
def isFraction : List Char → Bool
  | '.' :: rest => digitsThen isExponent rest
  | rest => isExponent rest

/-- Whether a text is a number without sign.  No number starts with a zero and
another digit. -/
def isUnsigned : List Char → Bool
  | '0' :: rest => isFraction rest
  | rest => digitsThen isFraction rest

/-- Whether a text is a number. -/
def isNumeral : List Char → Bool
  | '-' :: rest => isUnsigned rest
  | rest => isUnsigned rest

/-! ## Complete tokens -/

/-- The token with the characters of a number. -/
def Token.ofNumber? (chars : List Char) : Option Token :=
  if isNumeral chars then some (.number (String.ofList chars)) else none

/-- The token with the characters of a word. -/
def Token.ofWord? (chars : List Char) : Option Token :=
  if chars = "null".toList then some .null
  else if chars = "true".toList then some (.bool true)
  else if chars = "false".toList then some (.bool false)
  else none

/-- The token with given characters between quotes. -/
def Token.ofQuoted? (chars : List Char) : Option Token :=
  (pieces? chars).map fun pieces => .string ((join? pieces).map String.ofList)

/-- The token that is a punctuation mark. -/
def Token.ofMark? : Char → Option Token
  | '[' => some .openArray
  | ']' => some .closeArray
  | '\x7b' => some .openObject
  | '\x7d' => some .closeObject
  | ',' => some .comma
  | ':' => some .colon
  | _ => none

/-! ## The scan -/

/-- The characters that may stand between tokens. -/
def isBlank (c : Char) : Bool :=
  c = ' ' || c = '\t' || c = '\n' || c = '\r'

/-- What the scan is in the middle of.  The characters already seen are listed
from the last one to the first. -/
inductive Scan where
  /-- Between two tokens. -/
  | between
  /-- In a string; `escaped` says that the last character was an escape mark. -/
  | string (seen : List Char) (escaped : Bool)
  /-- In a number. -/
  | number (seen : List Char)
  /-- In a word. -/
  | word (seen : List Char)
  deriving DecidableEq, Repr

namespace Scan

/-- Goes over a character between two tokens. -/
def start (c : Char) : Option (List Token × Scan) :=
  if isBlank c then some ([], .between)
  else if c = '"' then some ([], .string [] false)
  else if isNumeric c then some ([], .number [c])
  else if c.isLower then some ([], .word [c])
  else (Token.ofMark? c).map fun mark => ([mark], .between)

/-- Ends a token and goes over the character after it. -/
def finish (token : Option Token) (c : Char) : Option (List Token × Scan) :=
  match token, start c with
  | some token, some (tokens, scan) => some (token :: tokens, scan)
  | _, _ => none

/-- Goes over one character: the tokens that it completes and what the scan is
in the middle of afterwards. -/
def step : Scan → Char → Option (List Token × Scan)
  | .between, c => start c
  | .string seen true, c => some ([], .string (c :: seen) false)
  | .string seen false, c =>
      if c = '"' then
        (Token.ofQuoted? seen.reverse).map fun token => ([token], .between)
      else
        some ([], .string (c :: seen) (c = '\\'))
  | .number seen, c =>
      if isNumeric c then some ([], .number (c :: seen))
      else finish (Token.ofNumber? seen.reverse) c
  | .word seen, c =>
      if c.isLower then some ([], .word (c :: seen))
      else finish (Token.ofWord? seen.reverse) c

/-- The tokens that the end of the text completes. -/
def close : Scan → Option (List Token)
  | .between => some []
  | .string _ _ => none
  | .number seen => (Token.ofNumber? seen.reverse).map ([·])
  | .word seen => (Token.ofWord? seen.reverse).map ([·])

/-- The tokens of the rest of a text. -/
def run : Scan → List Char → Option (List Token)
  | scan, [] => scan.close
  | scan, c :: rest =>
      match scan.step c with
      | none => none
      | some (tokens, scan) => (run scan rest).map (tokens ++ ·)

end Scan

/-- The tokens of a text. -/
def tokens? (chars : List Char) : Option (List Token) :=
  Scan.between.run chars

end InventoryGraph.Json
