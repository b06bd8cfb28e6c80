import InventoryGraph.Json.Token
import InventoryGraph.Proofs.Split

/-!
# What the characters of a string spell

A string is read in steps: the scan looks for its end, the characters in front of the end
become parts, and the parts become a text if every surrogate is paired.  This file says
without these steps which characters spell which text (`Spells`).

Of escapes the scan knows only that a mark takes the next character along.  So a string
ends at the first quote that counts, in the sense in which the delimiters of a split do
(`exists_body_of_run_string`), and what stands in front of that quote is spelled character
by character (`ofQuoted?_eq_some_iff`).

Main statement: the scan over a string completes the token of the text that its characters
spell, and goes on between tokens (`Spells.run`).
-/

namespace InventoryGraph.Json

open Escape

/-- The characters between two quotes spell a text. -/
inductive Spells : List Char → List Char → Prop
  | nil : Spells [] []
  /-- A character that need not be escaped stands for itself. -/
  | plain {c : Char} {body text : List Char} (notQuote : c ≠ '"') (notMark : c ≠ '\\')
      (printable : ¬c.toNat < 0x20) (rest : Spells body text) : Spells (c :: body) (c :: text)
  /-- A short escape. -/
  | short {mark c : Char} {body text : List Char} (known : shortEscape? mark = some c)
      (rest : Spells body text) : Spells ('\\' :: mark :: body) (c :: text)
  /-- The number of a character that takes one code unit. -/
  | unit {a b c d : Char} {value : Nat} {body text : List Char}
      (digits : codeUnit? a b c d = some value) (notLead : isLead value = false)
      (notTrail : isTrail value = false) (rest : Spells body text) :
      Spells ('\\' :: 'u' :: a :: b :: c :: d :: body) (Char.ofNat value :: text)
  /-- The two numbers of a character that takes two code units. -/
  | pair {a b c d e f g h : Char} {lead trail : Nat} {body text : List Char}
      (leadDigits : codeUnit? a b c d = some lead) (isLead : isLead lead = true)
      (trailDigits : codeUnit? e f g h = some trail) (isTrail : isTrail trail = true)
      (rest : Spells body text) :
      Spells ('\\' :: 'u' :: a :: b :: c :: d :: '\\' :: 'u' :: e :: f :: g :: h :: body)
        (pairChar lead trail :: text)

/-! ## The parts of a string -/

/-- The quote is no escape mark. -/
theorem quote_ne_mark : '"' ≠ '\\' := by
  decide

/-- A hexadecimal digit means nothing to the scan. -/
theorem ne_quote_and_ne_mark_of_hexValue? {c : Char} {value : Nat}
    (digit : hexValue? c = some value) : c ≠ '"' ∧ c ≠ '\\' := by
  constructor
  · rintro rfl
    cases digit
  · rintro rfl
    cases digit

/-- The digits of a code unit mean nothing to the scan. -/
theorem ne_quote_and_ne_mark_of_codeUnit? {a b c d : Char} {value : Nat}
    (digits : codeUnit? a b c d = some value) :
    ∀ digit ∈ [a, b, c, d], digit ≠ '"' ∧ digit ≠ '\\' := by
  simp only [codeUnit?, Option.bind_eq_bind, Option.bind_eq_some_iff] at digits
  rcases digits with ⟨_, first, _, second, _, third, _, fourth, _⟩
  simp only [List.forall_mem_cons, List.not_mem_nil, false_implies, implies_true, and_true]
  exact ⟨ne_quote_and_ne_mark_of_hexValue? first, ne_quote_and_ne_mark_of_hexValue? second,
    ne_quote_and_ne_mark_of_hexValue? third, ne_quote_and_ne_mark_of_hexValue? fourth⟩

/-- The number of a code unit does not end the string. -/
theorem unbroken_codeUnit_iff {a b c d : Char} {value : Nat}
    (digits : codeUnit? a b c d = some value) (rest : List Char) :
    Unbroken '"' ('\\' :: 'u' :: a :: b :: c :: d :: rest) ↔ Unbroken '"' rest := by
  have plain := ne_quote_and_ne_mark_of_codeUnit? digits
  simp only [List.forall_mem_cons] at plain
  simp [unbroken_escaped_iff, unbroken_cons_iff, plain]

theorem isOpen_codeUnit {a b c d : Char} {value : Nat}
    (digits : codeUnit? a b c d = some value) (rest : List Char) :
    isOpen ('\\' :: 'u' :: a :: b :: c :: d :: rest) = isOpen rest := by
  have plain := ne_quote_and_ne_mark_of_codeUnit? digits
  simp only [List.forall_mem_cons] at plain
  simp [isOpen_cons, plain]

theorem pieces?_cons_of_plain {c : Char} (notMark : c ≠ '\\') (printable : ¬c.toNat < 0x20)
    (rest : List Char) : pieces? (c :: rest) = (pieces? rest).map (.char c :: ·) := by
  simp [pieces?, notMark, printable]

/-- The code units below the halves of surrogate pairs are none of them. -/
theorem isLead_and_isTrail_of_lt {value : Nat} (small : value < 0xD800) :
    isLead value = false ∧ isTrail value = false := by
  simp only [isLead, isTrail, Bool.and_eq_false_iff, decide_eq_false_iff_not]
  omega

/-- A code unit that is no half of a surrogate pair stands for itself. -/
theorem join?_unit_cons {value : Nat} (notLead : isLead value = false)
    (notTrail : isTrail value = false) (rest : List Piece) :
    join? (.unit value :: rest) = (join? rest).map (Char.ofNat value :: ·) := by
  match rest with
  | [] => simp [join?, notLead, notTrail]
  | .char c :: rest => simp [join?, notLead, notTrail]
  | .unit next :: rest => simp [join?, notLead, notTrail]

theorem pieces?_unit {a b c d : Char} {value : Nat} (digits : codeUnit? a b c d = some value)
    (rest : List Char) :
    pieces? ('\\' :: 'u' :: a :: b :: c :: d :: rest) = (pieces? rest).map (.unit value :: ·) := by
  rw [pieces?, digits]

theorem pieces?_short {mark c : Char} (known : shortEscape? mark = some c) (rest : List Char) :
    pieces? ('\\' :: mark :: rest) = (pieces? rest).map (.char c :: ·) := by
  have notUnit : mark ≠ 'u' := by
    rintro rfl
    cases known
  rw [pieces?, known]
  all_goals simp [notUnit]

/-- A string starts with one of three kinds of parts. -/
inductive Starts : List Char → Piece → List Char → Prop
  | unit {a b c d : Char} {value : Nat} {rest : List Char}
      (digits : codeUnit? a b c d = some value) :
      Starts ('\\' :: 'u' :: a :: b :: c :: d :: rest) (.unit value) rest
  | short {mark c : Char} {rest : List Char} (known : shortEscape? mark = some c) :
      Starts ('\\' :: mark :: rest) (.char c) rest
  | plain {c : Char} {rest : List Char} (notMark : c ≠ '\\') (printable : ¬c.toNat < 0x20) :
      Starts (c :: rest) (.char c) rest

theorem exists_starts_of_pieces? {chars : List Char} {piece : Piece} {parts : List Piece}
    (read : pieces? chars = some (piece :: parts)) :
    ∃ rest, Starts chars piece rest ∧ pieces? rest = some parts := by
  unfold pieces? at read
  split at read
  · cases read
  · split at read
    · cases read
    · rename_i digits
      rcases Option.map_eq_some_iff.mp read with ⟨_, readRest, ⟨⟩⟩
      exact ⟨_, .unit digits, readRest⟩
  · split at read
    · cases read
    · rename_i known
      rcases Option.map_eq_some_iff.mp read with ⟨_, readRest, ⟨⟩⟩
      exact ⟨_, .short known, readRest⟩
  · split at read
    · cases read
    · rename_i plain
      simp only [Bool.or_eq_true, decide_eq_true_eq, not_or] at plain
      rcases Option.map_eq_some_iff.mp read with ⟨_, readRest, ⟨⟩⟩
      exact ⟨_, .plain plain.1 plain.2, readRest⟩

theorem eq_nil_of_pieces? {chars : List Char} (read : pieces? chars = some []) : chars = [] := by
  unfold pieces? at read
  split at read
  · rfl
  all_goals
    split at read
    · cases read
    · rcases Option.map_eq_some_iff.mp read with ⟨_, _, ⟨⟩⟩

/-- What the parts of a string denote is spelled by its characters. -/
theorem spells_of_join? {body text : List Char} {parts : List Piece}
    (unbroken : Unbroken '"' body) (read : pieces? body = some parts)
    (joined : join? parts = some text) : Spells body text := by
  -- By the cases in which parts are joined.  A half of a surrogate pair on its own joins
  -- with nothing, and the other cases are those of the spelling.
  fun_induction join? parts generalizing body text with
  | case1 =>
      cases joined
      cases eq_nil_of_pieces? read
      exact .nil
  | case2 c rest ih =>
      rcases Option.map_eq_some_iff.mp joined with ⟨later, joinedRest, rfl⟩
      rcases exists_starts_of_pieces? read with ⟨behind, starts, readRest⟩
      cases starts with
      | short known =>
          have unbroken := (unbroken_escaped_iff quote_ne_mark _ _).mp unbroken
          exact .short known (ih unbroken readRest joinedRest)
      | plain notMark printable =>
          rcases (unbroken_cons_iff notMark _).mp unbroken with ⟨notQuote, unbroken⟩
          exact .plain notQuote notMark printable (ih unbroken readRest joinedRest)
  | case3 lead trail rest isLead isTrail ih =>
      rcases Option.map_eq_some_iff.mp joined with ⟨later, joinedRest, rfl⟩
      rcases exists_starts_of_pieces? read with ⟨behind, starts, readNext⟩
      rcases exists_starts_of_pieces? readNext with ⟨rest, startsNext, readRest⟩
      cases starts with
      | unit leadDigits =>
          cases startsNext with
          | unit trailDigits =>
              rw [unbroken_codeUnit_iff leadDigits, unbroken_codeUnit_iff trailDigits] at unbroken
              exact .pair leadDigits isLead trailDigits isTrail (ih unbroken readRest joinedRest)
  | case4 => cases joined
  | case5 => cases joined
  | case6 value next rest notLead notTrail ih =>
      rcases Option.map_eq_some_iff.mp joined with ⟨later, joinedRest, rfl⟩
      rcases exists_starts_of_pieces? read with ⟨behind, starts, readRest⟩
      cases starts with
      | unit digits =>
          rw [unbroken_codeUnit_iff digits] at unbroken
          exact .unit digits (eq_false_of_ne_true notLead)
            (eq_false_of_ne_true notTrail) (ih unbroken readRest joinedRest)
  | case7 => cases joined
  | case8 value rest _ character ih =>
      rcases Option.map_eq_some_iff.mp joined with ⟨later, joinedRest, rfl⟩
      rcases exists_starts_of_pieces? read with ⟨behind, starts, readRest⟩
      simp only [Bool.or_eq_true, not_or, Bool.not_eq_true] at character
      cases starts with
      | unit digits =>
          rw [unbroken_codeUnit_iff digits] at unbroken
          exact .unit digits character.1 character.2 (ih unbroken readRest joinedRest)

/-- Characters that spell a text are read as parts that denote it. -/
theorem Spells.exists_pieces {body text : List Char} (spells : Spells body text) :
    ∃ parts, pieces? body = some parts ∧ join? parts = some text := by
  induction spells with
  | nil => exact ⟨[], rfl, rfl⟩
  | @plain c _ _ _ notMark printable _ ih =>
      rcases ih with ⟨parts, read, joined⟩
      exact ⟨.char c :: parts, by rw [pieces?_cons_of_plain notMark printable, read]; rfl,
        by rw [join?, joined]; rfl⟩
  | @short _ c _ _ known _ ih =>
      rcases ih with ⟨parts, read, joined⟩
      exact ⟨.char c :: parts, by rw [pieces?_short known, read]; rfl,
        by rw [join?, joined]; rfl⟩
  | @unit _ _ _ _ value _ _ digits notLead notTrail _ ih =>
      rcases ih with ⟨parts, read, joined⟩
      exact ⟨.unit value :: parts, by rw [pieces?_unit digits, read]; rfl,
        by rw [join?_unit_cons notLead notTrail, joined]; rfl⟩
  | @pair _ _ _ _ _ _ _ _ lead trail _ _ leadDigits isLead trailDigits isTrail _ ih =>
      rcases ih with ⟨parts, read, joined⟩
      refine ⟨.unit lead :: .unit trail :: parts, ?_, ?_⟩
      · rw [pieces?_unit leadDigits, pieces?_unit trailDigits, read]
        rfl
      · rw [join?, if_pos isLead, if_pos isTrail, joined]
        rfl

theorem Spells.unbroken {body text : List Char} (spells : Spells body text) :
    Unbroken '"' body := by
  induction spells with
  | nil => exact unbroken_of_not_mem List.not_mem_nil
  | plain notQuote notMark _ _ ih => exact (unbroken_cons_iff notMark _).mpr ⟨notQuote, ih⟩
  | short _ _ ih => exact (unbroken_escaped_iff quote_ne_mark _ _).mpr ih
  | unit digits _ _ _ ih => exact (unbroken_codeUnit_iff digits _).mpr ih
  | pair leadDigits _ trailDigits _ _ ih =>
      exact (unbroken_codeUnit_iff leadDigits _).mpr ((unbroken_codeUnit_iff trailDigits _).mpr ih)

theorem Spells.isOpen_eq_false {body text : List Char} (spells : Spells body text) :
    isOpen body = false := by
  induction spells with
  | nil => rfl
  | plain _ notMark _ _ ih => rwa [isOpen_cons notMark]
  | short _ _ ih => exact ih
  | unit digits _ _ _ ih => rwa [isOpen_codeUnit digits]
  | pair leadDigits _ trailDigits _ _ ih =>
      rwa [isOpen_codeUnit leadDigits, isOpen_codeUnit trailDigits]

/-- The token of a string has the text that the characters in the string spell. -/
theorem ofQuoted?_eq_some_iff {body : List Char} {text : String}
    (unbroken : Unbroken '"' body) :
    Token.ofQuoted? body = some (.string (some text)) ↔ Spells body text.toList := by
  simp only [Token.ofQuoted?, Option.map_eq_some_iff, Token.string.injEq]
  constructor
  · rintro ⟨parts, read, chars, joined, rfl⟩
    rw [String.toList_ofList]
    exact spells_of_join? unbroken read joined
  · intro spells
    rcases spells.exists_pieces with ⟨parts, read, joined⟩
    exact ⟨parts, read, text.toList, joined, String.ofList_toList⟩

/-! ## The scan over a string -/

namespace Scan

/-- The scan goes on from where a step leads. -/
theorem run_cons {scan next : Scan} {c : Char} {tokens : List Token}
    (step : scan.step c = some (tokens, next)) (rest : List Char) :
    run scan (c :: rest) = (run next rest).map (tokens ++ ·) := by
  rw [run, step]

/-- A step that completes no token. -/
theorem run_cons_nil {scan next : Scan} {c : Char} (step : scan.step c = some ([], next))
    (rest : List Char) : run scan (c :: rest) = run next rest := by
  rw [run_cons step]
  exact congrFun Option.map_id_fun' _

theorem run_string_cons {c : Char} (notQuote : c ≠ '"') (notMark : c ≠ '\\')
    (seen rest : List Char) :
    run (.string seen false) (c :: rest) = run (.string (c :: seen) false) rest := by
  apply run_cons_nil
  simp [step, notQuote, notMark]

/-- An escape mark takes the next character along. -/
theorem run_string_escaped (c : Char) (seen rest : List Char) :
    run (.string seen false) ('\\' :: c :: rest) = run (.string (c :: '\\' :: seen) false) rest := by
  have mark : step (.string seen false) '\\' = some ([], .string ('\\' :: seen) true) := rfl
  have escaped : step (.string ('\\' :: seen) true) c =
      some ([], .string (c :: '\\' :: seen) false) := rfl
  rw [run_cons_nil mark, run_cons_nil escaped]

/-- The scan goes on in a string as long as no quote counts. -/
theorem run_string_append {body : List Char} (unbroken : Unbroken '"' body)
    (closed : isOpen body = false) (seen rest : List Char) :
    run (.string seen false) (body ++ rest) = run (.string (body.reverse ++ seen) false) rest := by
  induction body using unit_induction generalizing seen with
  | nil => rfl
  | mark => cases closed
  | escaped c body ih =>
      have unbroken := (unbroken_escaped_iff quote_ne_mark c body).mp unbroken
      rw [List.cons_append, List.cons_append, run_string_escaped, ih unbroken closed]
      simp
  | plain c body notMark ih =>
      rcases (unbroken_cons_iff notMark body).mp unbroken with ⟨notQuote, unbroken⟩
      rw [isOpen_cons notMark] at closed
      rw [List.cons_append, run_string_cons notQuote notMark, ih unbroken closed]
      simp

/-- A string whose scan comes to an end has a first quote that counts, and its token is
that of the characters in front of this quote. -/
theorem exists_body_of_run_string {seen chars : List Char} {tokens : List Token}
    (scanned : run (.string seen false) chars = some tokens) :
    ∃ body rest token others, chars = body ++ '"' :: rest ∧ Unbroken '"' body ∧
      Token.ofQuoted? (seen.reverse ++ body) = some token ∧
      run .between rest = some others ∧ tokens = token :: others := by
  induction chars using unit_induction generalizing seen with
  | nil => cases scanned
  | mark => cases scanned
  | escaped c chars ih =>
      rw [run_string_escaped] at scanned
      rcases ih scanned with ⟨body, rest, token, others, rfl, unbroken, known, after, rfl⟩
      refine ⟨'\\' :: c :: body, rest, token, others, rfl, ?_, ?_, after, rfl⟩
      · exact (unbroken_escaped_iff quote_ne_mark c body).mpr unbroken
      · simpa using known
  | plain c chars notMark ih =>
      by_cases isQuote : c = '"'
      · subst isQuote
        cases known : Token.ofQuoted? seen.reverse with
        | none => simp [run, step, known] at scanned
        | some token =>
            have closed : step (.string seen false) '"' = some ([token], .between) := by
              rw [step, if_pos rfl, known, Option.map_some]
            rw [run_cons closed] at scanned
            rcases Option.map_eq_some_iff.mp scanned with ⟨others, after, rfl⟩
            exact ⟨[], chars, token, others, rfl, unbroken_of_not_mem List.not_mem_nil,
              by rwa [List.append_nil], after, rfl⟩
      · rw [run_string_cons isQuote notMark] at scanned
        rcases ih scanned with ⟨body, rest, token, others, rfl, unbroken, known, after, rfl⟩
        refine ⟨c :: body, rest, token, others, rfl, ?_, ?_, after, rfl⟩
        · exact (unbroken_cons_iff notMark body).mpr ⟨isQuote, unbroken⟩
        · simpa using known

end Scan

/-- A string is the token of the text that its characters spell. -/
theorem Spells.run {body : List Char} {text : String} (spells : Spells body text.toList)
    (rest : List Char) :
    Scan.between.run ('"' :: (body ++ '"' :: rest)) =
      (Scan.between.run rest).map (.string (some text) :: ·) := by
  have opened : Scan.step .between '"' = some ([], .string [] false) := rfl
  have closed : Scan.step (.string body.reverse false) '"' =
      some ([.string (some text)], .between) := by
    rw [Scan.step, if_pos rfl, List.reverse_reverse,
      (ofQuoted?_eq_some_iff spells.unbroken).mpr spells, Option.map_some]
  rw [Scan.run_cons_nil opened, Scan.run_string_append spells.unbroken spells.isOpen_eq_false,
    List.append_nil, Scan.run_cons closed]
  rfl

end InventoryGraph.Json
