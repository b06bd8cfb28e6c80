import InventoryGraph.Json.Reader
import InventoryGraph.Proofs.Json.RoundTrip

/-!
# Which JSON texts are strings

A JSON text denotes a text when it is a string that spells the text, with nothing but
blanks around it (`Denotes`).  The reader agrees.  A scan between tokens that comes upon
anything but blanks completes a token, and this token is a string only behind a quote
(`run_between_cases`); and the reader ends with a string only when there is no token but
the string (`of_readValue_eq_string`).

Main statement: a JSON text is read as the string of a text exactly when it denotes the
text (`read?_eq_text_iff`).
-/

namespace InventoryGraph.Json

open Escape

/-- A JSON text is a string with given characters between its quotes. -/
def IsQuoted (json body : List Char) : Prop :=
  ∃ before after, json = before ++ '"' :: (body ++ '"' :: after) ∧
    (∀ c ∈ before, isBlank c = true) ∧ ∀ c ∈ after, isBlank c = true

/-- A JSON text is a string that denotes a text. -/
def Denotes (json text : String) : Prop :=
  ∃ body, IsQuoted json.toList body ∧ Spells body text.toList

/-! ## The only token of a text -/

/-- A token that is no string. -/
def Token.IsOther (token : Token) : Prop :=
  ∀ text, token ≠ .string text

theorem Token.isOther_of_ofNumber? {chars : List Char} {token : Token}
    (known : ofNumber? chars = some token) : token.IsOther := by
  unfold ofNumber? at known
  split at known
  · cases known
    exact fun _ => Token.noConfusion
  · cases known

theorem Token.isOther_of_ofWord? {chars : List Char} {token : Token}
    (known : ofWord? chars = some token) : token.IsOther := by
  unfold ofWord? at known
  repeat
    split at known
    · cases known
      exact fun _ => Token.noConfusion
  cases known

theorem Token.isOther_of_ofMark? {c : Char} {token : Token}
    (known : ofMark? c = some token) : token.IsOther := by
  unfold ofMark? at known
  split at known <;> cases known <;> exact fun _ => Token.noConfusion

namespace Scan

/-- The scan is in the middle of a number or a word. -/
inductive Begun : Scan → Prop
  | number (seen : List Char) : Begun (.number seen)
  | word (seen : List Char) : Begun (.word seen)

/-- A token that is no string and ends before a character comes first. -/
theorem exists_of_finish {token : Option Token} {c : Char} {tokens : List Token} {next : Scan}
    (other : ∀ first ∈ token, first.IsOther) (finished : finish token c = some (tokens, next)) :
    ∃ first others, tokens = first :: others ∧ first.IsOther := by
  unfold finish at finished
  split at finished
  · rename_i first _ _ _
    cases finished
    exact ⟨first, _, rfl, other first rfl⟩
  · cases finished

/-- A scan in the middle of a number or a word completes that before anything else. -/
theorem Begun.exists_of_run {scan : Scan} {chars : List Char} {tokens : List Token}
    (begun : Begun scan) (scanned : run scan chars = some tokens) :
    ∃ first others, tokens = first :: others ∧ first.IsOther := by
  induction chars generalizing scan tokens with
  | nil =>
      cases begun with
      | number seen =>
          rcases Option.map_eq_some_iff.mp scanned with ⟨first, known, rfl⟩
          exact ⟨first, [], rfl, Token.isOther_of_ofNumber? known⟩
      | word seen =>
          rcases Option.map_eq_some_iff.mp scanned with ⟨first, known, rfl⟩
          exact ⟨first, [], rfl, Token.isOther_of_ofWord? known⟩
  | cons c chars ih =>
      cases stepped : scan.step c with
      | none => simp [run, stepped] at scanned
      | some result =>
          obtain ⟨completed, next⟩ := result
          rw [run_cons stepped] at scanned
          rcases Option.map_eq_some_iff.mp scanned with ⟨later, after, rfl⟩
          have goesOn : (completed = [] ∧ Begun next) ∨
              ∃ first others, completed = first :: others ∧ first.IsOther := by
            cases begun with
            | number seen =>
                simp only [step] at stepped
                split at stepped
                · cases stepped
                  exact Or.inl ⟨rfl, .number _⟩
                · exact Or.inr (exists_of_finish (fun _ => Token.isOther_of_ofNumber?) stepped)
            | word seen =>
                simp only [step] at stepped
                split at stepped
                · cases stepped
                  exact Or.inl ⟨rfl, .word _⟩
                · exact Or.inr (exists_of_finish (fun _ => Token.isOther_of_ofWord?) stepped)
          rcases goesOn with ⟨rfl, begun⟩ | ⟨first, others, rfl, other⟩
          · exact ih begun after
          · exact ⟨first, others ++ later, rfl, other⟩

/-- A scan between tokens goes over blanks only, or completes a token that is no string,
or comes upon a quote. -/
theorem run_between_cases {chars : List Char} {tokens : List Token}
    (scanned : run .between chars = some tokens) :
    (tokens = [] ∧ ∀ c ∈ chars, isBlank c = true) ∨
      (∃ first others, tokens = first :: others ∧ first.IsOther) ∨
      ∃ before rest, chars = before ++ '"' :: rest ∧ (∀ c ∈ before, isBlank c = true) ∧
        run (.string [] false) rest = some tokens := by
  induction chars generalizing tokens with
  | nil =>
      cases scanned
      exact Or.inl ⟨rfl, by simp⟩
  | cons c chars ih =>
      cases stepped : step .between c with
      | none => simp [run, stepped] at scanned
      | some result =>
          obtain ⟨completed, next⟩ := result
          rw [run_cons stepped] at scanned
          rcases Option.map_eq_some_iff.mp scanned with ⟨later, after, rfl⟩
          simp only [step, start] at stepped
          split at stepped
          · rename_i blank
            cases stepped
            rcases ih after with ⟨rfl, blanks⟩ | other | ⟨before, rest, rfl, blanks, string⟩
            · exact Or.inl ⟨rfl, List.forall_mem_cons.mpr ⟨blank, blanks⟩⟩
            · exact Or.inr (Or.inl other)
            · exact Or.inr (Or.inr ⟨c :: before, rest, rfl,
                List.forall_mem_cons.mpr ⟨blank, blanks⟩, string⟩)
          split at stepped
          · rename_i isQuote
            cases stepped
            exact Or.inr (Or.inr ⟨[], chars, by rw [isQuote]; rfl, by simp, after⟩)
          split at stepped
          · cases stepped
            exact Or.inr (Or.inl ((Begun.number _).exists_of_run after))
          split at stepped
          · cases stepped
            exact Or.inr (Or.inl ((Begun.word _).exists_of_run after))
          · rcases Option.map_eq_some_iff.mp stepped with ⟨mark, known, ⟨⟩⟩
            exact Or.inr (Or.inl ⟨mark, later, rfl, Token.isOther_of_ofMark? known⟩)

/-- A text without tokens is blank. -/
theorem isBlank_of_run_eq_nil {chars : List Char} (scanned : run .between chars = some []) :
    ∀ c ∈ chars, isBlank c = true := by
  rcases run_between_cases scanned with ⟨_, blanks⟩ | ⟨_, _, ⟨⟩, _⟩ | ⟨_, _, _, _, string⟩
  · exact blanks
  · rcases exists_body_of_run_string string with ⟨_, _, _, _, _, _, _, _, ⟨⟩⟩

end Scan

/-- A text with a single token, which has a text, is a string that denotes this text. -/
theorem denotes_of_tokens? {json text : String}
    (scanned : tokens? json.toList = some [.string (some text)]) : Denotes json text := by
  rcases Scan.run_between_cases scanned with ⟨⟨⟩, _⟩ | ⟨_, _, ⟨⟩, other⟩ |
    ⟨before, rest, json_eq, blank, string⟩
  · exact absurd rfl (other (some text))
  · rcases Scan.exists_body_of_run_string string with
      ⟨body, after, _, _, rfl, unbroken, known, rest, ⟨⟩⟩
    exact ⟨body, ⟨before, after, json_eq, blank, Scan.isBlank_of_run_eq_nil rest⟩,
      (ofQuoted?_eq_some_iff unbroken).mp known⟩

theorem Denotes.tokens?_eq {json text : String} (denotes : Denotes json text) :
    tokens? json.toList = some [.string (some text)] := by
  rcases denotes with ⟨body, ⟨before, after, json_eq, blankBefore, blankAfter⟩, spells⟩
  have nothing : Scan.between.run after = some [] := by
    rw [← List.append_nil after, Scan.run_blanks blankAfter]
    rfl
  rw [tokens?, json_eq, Scan.run_blanks blankBefore, spells.run, nothing, Option.map_some]

/-! ## The only value of a token -/

mutual

/-- The reader ends with a string only when it reads the token of this string and no
other. -/
theorem eq_of_readValue_eq_string {stack : List Frame} {tokens : List Token}
    {text : Option String} (read : readValue stack tokens = some (.string text)) :
    stack = [] ∧ tokens = [.string text] := by
  unfold readValue at read
  split at read
  case h_1 | h_2 | h_3 | h_5 | h_7 => rcases eq_of_readOn_eq_string read with ⟨_, _, ⟨⟩⟩
  case h_4 =>
    rcases eq_of_readOn_eq_string read with ⟨rfl, rfl, ⟨⟩⟩
    exact ⟨rfl, rfl⟩
  case h_6 | h_8 => cases (eq_of_readValue_eq_string read).1
  case h_9 => cases read
termination_by tokens.length

/-- Behind a complete value, an open array or object would be the value in its place. -/
theorem eq_of_readOn_eq_string {value : Json} {stack : List Frame} {tokens : List Token}
    {text : Option String} (read : readOn value stack tokens = some (.string text)) :
    stack = [] ∧ tokens = [] ∧ value = .string text := by
  unfold readOn at read
  split at read
  case h_1 => exact ⟨rfl, rfl, Option.some.inj read⟩
  case h_2 | h_4 => cases (eq_of_readValue_eq_string read).1
  case h_3 | h_5 => rcases eq_of_readOn_eq_string read with ⟨_, _, ⟨⟩⟩
  case h_6 => cases read
termination_by tokens.length

end

/-- A JSON text is read as the string of a text exactly when it denotes the text. -/
theorem read?_eq_text_iff {json text : String} :
    read? json = some (.text text) ↔ Denotes json text := by
  constructor
  · intro read
    rcases Option.bind_eq_some_iff.mp read with ⟨tokens, scanned, value⟩
    rw [(eq_of_readValue_eq_string value).2] at scanned
    exact denotes_of_tokens? scanned
  · intro denotes
    rw [read?, denotes.tokens?_eq, Option.bind_some]
    rfl

end InventoryGraph.Json
