import InventoryGraph.Json.Reader
import InventoryGraph.Json.Writer
import InventoryGraph.Proofs.Json.Quoted

/-!
# What is written is read back

A written value is read back in two steps, which meet at its tokens.  The scan over
the text completes the tokens, blanks of the layout apart (`scans_write`), and the
reader makes the value of them again (`readValue_tokens`).

Main statement: in every layout that puts only blanks around items, a value without
numbers whose strings have texts is read back as it is (`read?_write`).
-/

namespace InventoryGraph.Json

/-! ## The tokens of a value -/

mutual

/-- The tokens of a value in the order in which they are written. -/
def tokens : Json → List Token
  | .null => [.null]
  | .bool value => [.bool value]
  | .number literal => [.number literal]
  | .string text => [.string text]
  | .array [] => [.openArray, .closeArray]
  | .array (item :: items) => .openArray :: (tokens item ++ itemTokens items ++ [.closeArray])
  | .object [] => [.openObject, .closeObject]
  | .object ((key, value) :: members) =>
      .openObject :: .string key :: .colon ::
        (tokens value ++ memberTokens members ++ [.closeObject])

/-- The tokens of the items of an array after the first. -/
def itemTokens : List Json → List Token
  | [] => []
  | item :: items => .comma :: (tokens item ++ itemTokens items)

/-- The tokens of the members of an object after the first. -/
def memberTokens : List (Option String × Json) → List Token
  | [] => []
  | (key, value) :: members =>
      .comma :: .string key :: .colon :: (tokens value ++ memberTokens members)

end

/-- No value starts like the end of an array. -/
theorem exists_tokens_eq_cons (value : Json) :
    ∃ first rest, value.tokens = first :: rest ∧ first ≠ .closeArray := by
  match value with
  | .null => exact ⟨_, _, rfl, by decide⟩
  | .bool value => exact ⟨_, _, rfl, Token.noConfusion⟩
  | .number literal => exact ⟨_, _, rfl, Token.noConfusion⟩
  | .string text => exact ⟨_, _, rfl, Token.noConfusion⟩
  | .array [] => exact ⟨_, _, rfl, by decide⟩
  | .array (item :: items) => exact ⟨_, _, rfl, by decide⟩
  | .object [] => exact ⟨_, _, rfl, by decide⟩
  | .object ((key, value) :: members) => exact ⟨_, _, rfl, by decide⟩

/-! ## Reading tokens -/

/-- An array that does not end at once starts with an item. -/
theorem readValue_openArray (stack : List Frame) (value : Json) (rest : List Token) :
    readValue stack (.openArray :: (value.tokens ++ rest)) =
      readValue (.array [] :: stack) (value.tokens ++ rest) := by
  obtain ⟨first, others, starts, open_⟩ := value.exists_tokens_eq_cons
  rw [starts, List.cons_append]
  cases first with
  | closeArray => contradiction
  | _ => rfl

mutual

/-- The reader makes a value of its tokens and goes on after it. -/
theorem readValue_tokens (value : Json) (stack : List Frame) (rest : List Token) :
    readValue stack (value.tokens ++ rest) = readOn value stack rest := by
  match value with
  | .null => rfl
  | .bool value => rfl
  | .number literal => rfl
  | .string text => rfl
  | .array [] => rfl
  | .array (item :: items) =>
      rw [tokens, List.cons_append, List.append_assoc, List.append_assoc, readValue_openArray,
        readValue_tokens item]
      exact readOn_itemTokens items item [] stack rest
  | .object [] => rfl
  | .object ((key, value) :: members) =>
      rw [tokens, List.cons_append, List.cons_append, List.cons_append, List.append_assoc,
        List.append_assoc, readValue, readValue_tokens value]
      exact readOn_memberTokens members value [] key stack rest

theorem readOn_itemTokens (items : List Json) (item : Json) (seen : List Json)
    (stack : List Frame) (rest : List Token) :
    readOn item (.array seen :: stack) (itemTokens items ++ ([.closeArray] ++ rest)) =
      readOn (.array ((item :: seen).reverse ++ items)) stack rest := by
  match items with
  | [] =>
      rw [List.append_nil]
      rfl
  | next :: items =>
      rw [itemTokens, List.cons_append, List.append_assoc, readOn, readValue_tokens next,
        readOn_itemTokens items next, List.reverse_cons, List.append_assoc]
      rfl

theorem readOn_memberTokens (members : List (Option String × Json)) (value : Json)
    (seen : List (Option String × Json)) (key : Option String) (stack : List Frame)
    (rest : List Token) :
    readOn value (.object seen key :: stack) (memberTokens members ++ ([.closeObject] ++ rest)) =
      readOn (.object (((key, value) :: seen).reverse ++ members)) stack rest := by
  match members with
  | [] =>
      rw [List.append_nil]
      rfl
  | (nextKey, next) :: members =>
      rw [memberTokens, List.cons_append, List.cons_append, List.cons_append, List.append_assoc,
        readOn, readValue_tokens next, readOn_memberTokens members next, List.reverse_cons,
        List.append_assoc]
      rfl

end

/-! ## Scanning what is written -/

/-- A value without numbers whose strings all have texts. -/
inductive Plain : Json → Prop
  | null : Plain .null
  | bool (value : Bool) : Plain (.bool value)
  | text (value : String) : Plain (.text value)
  | array {items : List Json} (plain : ∀ item ∈ items, Plain item) : Plain (.array items)
  | ofMembers {members : List (String × Json)} (plain : ∀ member ∈ members, Plain member.2) :
      Plain (.ofMembers members)

/-- The layout puts nothing but blanks around items. -/
structure Layout.IsBlank (layout : Layout) : Prop where
  line : ∀ depth, ∀ c ∈ (layout.line depth).toList, isBlank c = true
  gap : ∀ c ∈ layout.gap.toList, isBlank c = true

theorem Layout.isBlank_compact : Layout.compact.IsBlank where
  line _ _ := nofun
  gap _ := nofun

theorem Layout.isBlank_indented : Layout.indented.IsBlank where
  line depth c member := by
    simp only [Layout.indented, String.toList_append, String.toList_ofList, List.mem_append,
      List.mem_replicate] at member
    rcases member with newline | ⟨_, rfl⟩
    · have newline : c = '\n' := by simpa using newline
      subst newline
      rfl
    · rfl
  gap c member := by
    have blank : c = ' ' := by simpa [Layout.indented] using member
    subst blank
    rfl

/-- A word ends in front of a text. -/
def Ends (rest : List Char) : Prop :=
  ∀ c ∈ rest.head?, c.isLower = false

theorem ends_nil : Ends [] := by
  simp [Ends]

theorem ends_cons {c : Char} (notLower : c.isLower = false) (rest : List Char) :
    Ends (c :: rest) := by
  simpa [Ends] using notLower

theorem isLower_of_isBlank {c : Char} (blank : isBlank c = true) : c.isLower = false := by
  simp only [isBlank, Bool.or_eq_true, decide_eq_true_eq] at blank
  rcases blank with ((rfl | rfl) | rfl) | rfl <;> rfl

theorem Ends.append_blanks {blanks rest : List Char} (ends : Ends rest)
    (blank : ∀ c ∈ blanks, isBlank c = true) : Ends (blanks ++ rest) := by
  cases blanks with
  | nil => exact ends
  | cons c blanks => exact ends_cons (isLower_of_isBlank (blank c List.mem_cons_self)) _

/-- Blanks between tokens do not show. -/
theorem Scan.run_blanks {blanks : List Char} (blank : ∀ c ∈ blanks, isBlank c = true)
    (rest : List Char) : run .between (blanks ++ rest) = run .between rest := by
  induction blanks with
  | nil => rfl
  | cons c blanks ih =>
      rw [List.forall_mem_cons] at blank
      have skipped : step .between c = some ([], .between) := by
        rw [step, start, if_pos blank.1]
      rw [List.cons_append, run_cons_nil skipped, ih blank.2]

/-- In front of `rest`, the scan over a text completes some tokens. -/
def Scans (text : String) (tokens : List Token) (rest : List Char) : Prop :=
  Scan.between.run (text.toList ++ rest) = (Scan.between.run rest).map (tokens ++ ·)

namespace Scans

variable {first second : String} {tokens more : List Token} {rest : List Char}

theorem append (before : Scans first tokens (second.toList ++ rest))
    (after : Scans second more rest) : Scans (first ++ second) (tokens ++ more) rest := by
  unfold Scans at before after ⊢
  rw [String.toList_append, List.append_assoc, before, after, Option.map_map]
  congr 1
  funext others
  exact (List.append_assoc tokens more others).symm

theorem blanks {text : String} (blank : ∀ c ∈ text.toList, isBlank c = true)
    (rest : List Char) : Scans text [] rest := by
  rw [Scans, Scan.run_blanks blank]
  exact (congrFun Option.map_id_fun' _).symm

theorem append_blanks (before : Scans first tokens (second.toList ++ rest))
    (blank : ∀ c ∈ second.toList, isBlank c = true) : Scans (first ++ second) tokens rest := by
  have after := before.append (blanks blank rest)
  rwa [List.append_nil] at after

/-- A punctuation mark is a token of its own. -/
theorem mark (text : String) {c : Char} {token : Token} (alone : text.toList = [c])
    (start : Scan.step .between c = some ([token], .between)) (rest : List Char) :
    Scans text [token] rest := by
  unfold Scans
  rw [alone, List.singleton_append, Scan.run_cons start]

theorem quote (text : String) (rest : List Char) :
    Scans (quote text) [.string (some text)] rest :=
  Scan.run_quote text rest

end Scans

/-- A word is complete where it ends. -/
theorem run_word {seen : List Char} {token : Token}
    (known : Token.ofWord? seen.reverse = some token) {rest : List Char} (ends : Ends rest) :
    Scan.run (.word seen) rest = (Scan.between.run rest).map (token :: ·) := by
  cases rest with
  | nil => simp [Scan.run, Scan.close, known]
  | cons c rest =>
      have notLower : c.isLower = false := ends c rfl
      simp only [Scan.run, Scan.step, notLower, Bool.false_eq_true, if_false, known, Scan.finish]
      cases Scan.start c with
      | none => rfl
      | some next =>
          obtain ⟨tokens, scan⟩ := next
          simp [Function.comp_def]

/-- Lower-case letters go on with a word. -/
theorem run_lower {chars : List Char} (lower : chars.all Char.isLower = true)
    (seen rest : List Char) :
    Scan.run (.word seen) (chars ++ rest) = Scan.run (.word (chars.reverse ++ seen)) rest := by
  induction chars generalizing seen with
  | nil => rfl
  | cons c chars ih =>
      rw [List.all_cons, Bool.and_eq_true] at lower
      have goesOn : Scan.step (.word seen) c = some ([], .word (c :: seen)) := by
        rw [Scan.step, if_pos lower.1]
      rw [List.cons_append, Scan.run_cons_nil goesOn, ih lower.2, List.reverse_cons,
        List.append_assoc, List.singleton_append]

/-- A word in front of a text where words end is a token. -/
theorem Scans.word (text : String) {c : Char} {chars : List Char} {token : Token}
    (spelled : text.toList = c :: chars) (start : Scan.step .between c = some ([], .word [c]))
    (lower : chars.all Char.isLower = true) (known : Token.ofWord? (c :: chars) = some token)
    {rest : List Char} (ends : Ends rest) : Scans text [token] rest := by
  have known' : Token.ofWord? (chars.reverse ++ [c]).reverse = some token := by
    rwa [List.reverse_append, List.reverse_reverse, List.reverse_singleton,
      List.singleton_append]
  unfold Scans
  rw [spelled, List.cons_append, Scan.run_cons_nil start, run_lower lower, run_word known' ends]
  rfl

variable {layout : Layout}

theorem Ends.writeItems {rest : List Char} (ends : Ends rest) (layout : Layout) (depth : Nat)
    (items : List Json) : Ends ((writeItems layout depth items).toList ++ rest) := by
  cases items with
  | nil => exact ends
  | cons item items =>
      simp only [Json.writeItems, String.toList_append, List.append_assoc]
      exact ends_cons rfl _

theorem Ends.writeMembers {rest : List Char} (ends : Ends rest) (layout : Layout) (depth : Nat)
    (members : List (Option String × Json)) :
    Ends ((writeMembers layout depth members).toList ++ rest) := by
  cases members with
  | nil => exact ends
  | cons member members =>
      simp only [Json.writeMembers, String.toList_append, List.append_assoc]
      exact ends_cons rfl _

/-- The text in front of the bracket at the end of an array or object. -/
theorem Layout.IsBlank.ends_line (blank : layout.IsBlank) (depth : Nat) {c : Char}
    (notLower : c.isLower = false) {text : String} (alone : text.toList = [c])
    (rest : List Char) : Ends ((layout.line depth).toList ++ (text.toList ++ rest)) := by
  apply Ends.append_blanks _ (blank.line depth)
  rw [alone]
  exact ends_cons notLower rest

/-- A mark with the blanks behind it. -/
theorem Layout.IsBlank.scans_mark (blank : layout.IsBlank) (text : String) {c : Char}
    {token : Token} (alone : text.toList = [c])
    (start : Scan.step .between c = some ([token], .between)) (depth : Nat)
    (rest : List Char) : Scans (text ++ layout.line depth) [token] rest :=
  (Scans.mark text alone start _).append_blanks (blank.line depth)

/-- A key with its colon and the blanks behind it. -/
theorem Layout.IsBlank.scans_key (blank : layout.IsBlank) {text : String}
    {tokens : List Token} (before : ∀ rest, Scans text tokens rest) (key : String)
    (rest : List Char) :
    Scans (text ++ quote key ++ ":" ++ layout.gap)
      (tokens ++ [.string (some key)] ++ [.colon]) rest :=
  (((before _).append (.quote key _)).append (.mark ":" rfl rfl _)).append_blanks blank.gap

/-- The scan over a written value completes its tokens, wherever the value stands. -/
def Written (layout : Layout) (value : Json) : Prop :=
  ∀ depth rest, Ends rest → Scans (write layout depth value) value.tokens rest

theorem scans_writeItems (blank : layout.IsBlank) {items : List Json}
    (written : ∀ item ∈ items, Written layout item) (depth : Nat) {rest : List Char}
    (ends : Ends rest) : Scans (writeItems layout depth items) (itemTokens items) rest := by
  induction items with
  | nil =>
      change Scans "" [] rest
      exact .blanks (by simp) rest
  | cons item items ih =>
      rw [List.forall_mem_cons] at written
      have comma := blank.scans_mark "," rfl rfl depth
      exact ((comma _).append (written.1 depth _ (ends.writeItems layout depth items))).append
        (ih written.2)

theorem scans_writeMembers (blank : layout.IsBlank) {members : List (String × Json)}
    (written : ∀ member ∈ members, Written layout member.2) (depth : Nat) {rest : List Char}
    (ends : Ends rest) :
    Scans (writeMembers layout depth (members.map fun member => (some member.1, member.2)))
      (memberTokens (members.map fun member => (some member.1, member.2))) rest := by
  induction members with
  | nil =>
      change Scans "" [] rest
      exact .blanks (by simp) rest
  | cons member members ih =>
      rw [List.forall_mem_cons] at written
      have comma := blank.scans_mark "," rfl rfl depth
      exact ((blank.scans_key comma member.1 _).append
        (written.1 depth _ (ends.writeMembers layout depth _))).append (ih written.2)

/-- The scan over a written value completes its tokens. -/
theorem written_of_plain (blank : layout.IsBlank) {value : Json} (plain : Plain value) :
    Written layout value := by
  induction plain with
  | null =>
      intro depth rest ends
      exact .word "null" rfl rfl rfl rfl ends
  | bool value =>
      intro depth rest ends
      cases value with
      | false => exact .word "false" rfl rfl rfl rfl ends
      | true => exact .word "true" rfl rfl rfl rfl ends
  | text value =>
      intro depth rest _
      exact .quote value rest
  | @array items _ ih =>
      intro depth rest _
      have closed : Scans "]" [.closeArray] rest := .mark "]" rfl rfl rest
      cases items with
      | nil => exact (Scans.mark "[" rfl rfl _).append closed
      | cons item items =>
          rw [List.forall_mem_cons] at ih
          have close : Ends ((layout.line depth).toList ++ ("]".toList ++ rest)) :=
            blank.ends_line depth rfl rfl rest
          have opened := blank.scans_mark "[" rfl rfl (depth + 1)
          have first := ih.1 (depth + 1) _ (close.writeItems layout (depth + 1) items)
          have others := scans_writeItems blank ih.2 (depth + 1) close
          exact ((((opened _).append first).append others).append_blanks
            (blank.line depth)).append closed
  | @ofMembers members _ ih =>
      intro depth rest _
      have closed : Scans "\x7d" [.closeObject] rest := .mark "\x7d" rfl rfl rest
      cases members with
      | nil => exact (Scans.mark "\x7b" rfl rfl _).append closed
      | cons member members =>
          rw [List.forall_mem_cons] at ih
          have close : Ends ((layout.line depth).toList ++ ("\x7d".toList ++ rest)) :=
            blank.ends_line depth rfl rfl rest
          have opened := blank.scans_mark "\x7b" rfl rfl (depth + 1)
          have keyed := blank.scans_key opened member.1
          have others := scans_writeMembers blank ih.2 (depth + 1) close
          have ends := close.writeMembers layout (depth + 1)
          exact ((((keyed _).append (ih.1 (depth + 1) _ (ends _))).append others).append_blanks
            (blank.line depth)).append closed

/-! ## Reading what is written -/

/-- A written value is read back as it is. -/
theorem read?_write (blank : layout.IsBlank) {value : Json} (plain : Plain value)
    (depth : Nat) : read? (write layout depth value) = some value := by
  have scanned := written_of_plain blank plain depth [] ends_nil
  rw [Scans, List.append_nil] at scanned
  have nothing : Scan.between.run [] = some [] := rfl
  rw [read?, tokens?, scanned, nothing, Option.map_some, Option.bind_some,
    readValue_tokens]
  rfl

theorem read?_pretty {value : Json} (plain : Plain value) : read? value.pretty = some value :=
  read?_write Layout.isBlank_indented plain 0

theorem read?_compact {value : Json} (plain : Plain value) : read? value.compact = some value :=
  read?_write Layout.isBlank_compact plain 0

end InventoryGraph.Json
