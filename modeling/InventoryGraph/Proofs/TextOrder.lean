import InventoryGraph.Proofs.TextForm

/-!
# The order of text forms

Two ids are told apart by the first field in which they differ (`firstDifference`), and so
are their text forms.  What stands in front of the value of this field is the same text in
both.  The value is written with its escapes, and a comma behind it unless it is the last
one.  A comma in the value is escaped, so the comma that ends one value never meets the
inside of the other (`eq_of_append_terminated`), and the comparison is over before the rest
of the text is reached (`encode_lt_encode_iff`).

This is the order of ids itself when neither value has a reserved character or one before
the comma (`encode_lt_encode_iff_lt`).  A character before the comma, such as `!`, comes
before the end of a shorter value in text forms, and behind it in ids.
-/

namespace InventoryGraph

/-! ## The order of words -/

section Words

variable {α : Type} [LT α]

/-- A common beginning takes no part in a comparison. -/
theorem append_lt_append_left_iff [Std.Irrefl (· < · : α → α → Prop)]
    (front left right : List α) : front ++ left < front ++ right ↔ left < right := by
  induction front with
  | nil => rfl
  | cons first front ih =>
      rw [List.cons_append, List.cons_append, List.cons_lt_cons_self, ih]

/-- What stands behind words takes no part in a comparison if neither is the beginning of
the other. -/
theorem append_lt_append_iff_of_apart {left right : List α}
    (apart : ∀ behindLeft behindRight, left ++ behindLeft ≠ right ++ behindRight)
    (behindLeft behindRight : List α) :
    left ++ behindLeft < right ++ behindRight ↔ left < right := by
  induction left generalizing right with
  | nil => exact absurd (List.append_nil right).symm (apart right [])
  | cons first left ih =>
      cases right with
      | nil => exact absurd (List.append_nil _) (apart [] (first :: left))
      | cons other right =>
          rw [List.cons_append, List.cons_append, List.cons_lt_cons_iff, List.cons_lt_cons_iff]
          apply or_congr_right
          apply and_congr_right
          rintro rfl
          apply ih
          intro behindLeft behindRight same
          exact apart behindLeft behindRight (congrArg (List.cons first) same)

end Words

namespace ObjectId

open Escape

/-! ## The text of a field -/

/-- What stands behind the value of a field: a comma, unless the text ends. -/
def Field.terminator : Field → List Char
  | .group => [',']
  | .kind => [',']
  | .space => [',']
  | .name => []

/-- A value as it is written in a field, with what ends it. -/
def terminated (field : Field) (value : String) : List Char :=
  escape value.toList ++ field.terminator

/-- A field as it is written, with what ends it. -/
def chunk (id : ObjectId) (field : Field) : List Char :=
  field.tag.toList ++ ['='] ++ terminated field (field.get id)

theorem code_eq_flatMap_chunk (id : ObjectId) : id.code = Field.all.flatMap id.chunk := by
  simp [code, Field.all, segment, chunk, terminated, Field.terminator]

/-- A text form around the value of one field. -/
theorem code_eq_of_cut {field : Field} {earlier later : List Field}
    (cut : Field.all = earlier ++ field :: later) (id : ObjectId) :
    id.code = earlier.flatMap id.chunk ++ field.tag.toList ++ ['='] ++
      (terminated field (field.get id) ++ later.flatMap id.chunk) := by
  rw [code_eq_flatMap_chunk, cut]
  simp [chunk]

/-- The comma behind a value is the first one that counts, so no value with its comma is
the beginning of another. -/
theorem eq_of_append_terminated {field : Field} (ends : field.terminator = [','])
    {left right : String} {behindLeft behindRight : List Char}
    (same : terminated field left ++ behindLeft = terminated field right ++ behindRight) :
    left = right := by
  have split_eq : ∀ (value : String) (behind : List Char),
      split ',' (terminated field value ++ behind) = escape value.toList :: split ',' behind := by
    intro value behind
    rw [terminated, ends, List.append_assoc, List.singleton_append,
      split_append_delimiter comma_ne_mark (unbroken_escape rfl comma_ne_mark _)
        (isOpen_escape _)]
  have parts := congrArg (split ',') same
  rw [split_eq, split_eq, List.cons.injEq] at parts
  have read := congrArg unescape parts.1
  rw [unescape_escape, unescape_escape, Except.ok.injEq] at read
  exact String.toList_inj.mp read

/-- All fields but the last end in a comma. -/
theorem terminator_eq_comma_or_last {field : Field} {earlier later : List Field}
    (cut : Field.all = earlier ++ field :: later) :
    field.terminator = [','] ∨ later = [] := by
  cases field with
  | group => exact Or.inl rfl
  | kind => exact Or.inl rfl
  | space => exact Or.inl rfl
  | name =>
      have parts : earlier = [.group, .kind, .space] ∧ later = [] := by
        simpa [Field.all, List.cons_eq_append_iff] using cut
      exact Or.inr parts.2

/-! ## The first difference -/

/-- The first field in which two ids differ. -/
def firstDifference (left right : ObjectId) : Option Field :=
  Field.all.find? fun field => field.get left ≠ field.get right

variable {left right : ObjectId} {field : Field}

theorem eq_of_get_eq (same : ∀ field : Field, field.get left = field.get right) :
    left = right := by
  obtain ⟨group, kind, space, name⟩ := left
  obtain rfl : group = right.group := same .group
  obtain rfl : kind = right.kind := same .kind
  obtain rfl : space = right.space := same .space
  obtain rfl : name = right.name := same .name
  rfl

theorem exists_firstDifference (different : left ≠ right) :
    ∃ field, firstDifference left right = some field := by
  cases first : firstDifference left right with
  | some field => exact ⟨field, rfl⟩
  | none =>
      rw [firstDifference, List.find?_eq_none] at first
      apply absurd _ different
      apply eq_of_get_eq
      intro field
      have listed : field ∈ Field.all := by cases field <;> decide
      simpa using first field listed

theorem cut_of_firstDifference (first : firstDifference left right = some field) :
    field.get left ≠ field.get right ∧
      ∃ earlier later, Field.all = earlier ++ field :: later ∧
        ∀ other ∈ earlier, other.get left = other.get right := by
  simpa [firstDifference, List.find?_eq_some_iff_append] using first

/-- Text forms are compared by what is written for the first field in which ids differ. -/
theorem encode_lt_encode_iff (first : firstDifference left right = some field) :
    left.encode < right.encode ↔
      terminated field (field.get left) < terminated field (field.get right) := by
  obtain ⟨different, earlier, later, cut, same⟩ := cut_of_firstDifference first
  have fronts : earlier.flatMap left.chunk = earlier.flatMap right.chunk := by
    apply List.flatMap_congr
    intro other member
    rw [chunk, chunk, same other member]
  rw [String.lt_iff, toList_encode, toList_encode, code_eq_of_cut cut, code_eq_of_cut cut,
    fronts, append_lt_append_left_iff]
  rcases terminator_eq_comma_or_last cut with ends | rfl
  · apply append_lt_append_iff_of_apart
    intro behindLeft behindRight met
    exact different (eq_of_append_terminated ends met)
  · simp

/-! ## The order of ids -/

/-- Ids are compared field by field. -/
theorem compare_eq_foldr (left right : ObjectId) :
    compare left right =
      Field.all.foldr
        (fun field rest => (compare (field.get left) (field.get right)).then rest) .eq := by
  simp [compare_eq, Field.all, Field.get]

/-- Fields in which ids do not differ take no part in their comparison. -/
theorem foldr_then_of_same {fields : List Field}
    (same : ∀ field ∈ fields, field.get left = field.get right) (rest : Ordering) :
    fields.foldr (fun field rest => (compare (field.get left) (field.get right)).then rest)
      rest = rest := by
  induction fields with
  | nil => rfl
  | cons field fields ih =>
      rw [List.forall_mem_cons] at same
      rw [List.foldr_cons, ih same.2, same.1, Std.ReflOrd.compare_self]
      rfl

theorem lt_iff_get_lt (first : firstDifference left right = some field) :
    left < right ↔ field.get left < field.get right := by
  obtain ⟨different, earlier, later, cut, same⟩ := cut_of_firstDifference first
  have decided : compare left right = compare (field.get left) (field.get right) := by
    rw [compare_eq_foldr, cut, List.foldr_append, foldr_then_of_same same, List.foldr_cons]
    cases found : compare (field.get left) (field.get right) with
    | lt => rfl
    | gt => rfl
    | eq => exact absurd (Std.LawfulEqOrd.eq_of_compare found) different
  change compare left right = .lt ↔ _
  rw [decided]
  exact compareOfLessAndEq_eq_lt

/-! ## Plain values -/

/-- All characters of a text come after the comma, and none of them is reserved. -/
def PlainText (text : String) : Prop :=
  ∀ c ∈ text.toList, ',' < c ∧ c ≠ '=' ∧ c ≠ '\\'

instance (text : String) : Decidable (PlainText text) :=
  List.decidableBAll (fun c => ',' < c ∧ c ≠ '=' ∧ c ≠ '\\') text.toList

theorem PlainText.unreserved {text : String} (plain : PlainText text) :
    ∀ c ∈ text.toList, isReserved c = false := by
  intro c member
  obtain ⟨after, notEquals, notMark⟩ := plain c member
  have notComma : c ≠ ',' := by
    rintro rfl
    exact Char.lt_irrefl _ after
  simp [isReserved, notEquals, notMark, notComma]

theorem escape_of_unreserved {value : List Char} (unreserved : ∀ c ∈ value, isReserved c = false) :
    escape value = value := by
  induction value with
  | nil => rfl
  | cons c rest ih =>
      rw [List.forall_mem_cons] at unreserved
      rw [escape_cons_of_plain unreserved.1, ih unreserved.2]

/-- A comma at the end does not show among words whose characters come after it. -/
theorem concat_comma_lt_iff {left right : List Char} (leftAfter : ∀ c ∈ left, ',' < c)
    (rightAfter : ∀ c ∈ right, ',' < c) : left ++ [','] < right ++ [','] ↔ left < right := by
  induction left generalizing right with
  | nil =>
      cases right with
      | nil => simp
      | cons other right =>
          have after := rightAfter other List.mem_cons_self
          simp [List.cons_lt_cons_iff, after]
  | cons first left ih =>
      rw [List.forall_mem_cons] at leftAfter
      cases right with
      | nil =>
          have before : ¬first < ',' := Char.lt_asymm leftAfter.1
          have different : first ≠ ',' := by
            rintro rfl
            exact Char.lt_irrefl _ leftAfter.1
          simp [List.cons_lt_cons_iff, before, different]
      | cons other right =>
          rw [List.forall_mem_cons] at rightAfter
          rw [List.cons_append, List.cons_append, List.cons_lt_cons_iff, List.cons_lt_cons_iff,
            ih leftAfter.2 rightAfter.2]

theorem terminated_lt_terminated_iff {value other : String} (plain : PlainText value)
    (otherPlain : PlainText other) (field : Field) :
    terminated field value < terminated field other ↔ value < other := by
  rw [terminated, terminated, escape_of_unreserved plain.unreserved,
    escape_of_unreserved otherPlain.unreserved, String.lt_iff]
  have commas := concat_comma_lt_iff (fun c member => (plain c member).1)
    fun c member => (otherPlain c member).1
  cases field with
  | group => exact commas
  | kind => exact commas
  | space => exact commas
  | name => simp [Field.terminator]

/-- Where the first difference is one of plain values, text forms are in the order of ids. -/
theorem encode_lt_encode_iff_lt (first : firstDifference left right = some field)
    (plain : PlainText (field.get left)) (otherPlain : PlainText (field.get right)) :
    left.encode < right.encode ↔ left < right := by
  rw [encode_lt_encode_iff first, lt_iff_get_lt first,
    terminated_lt_terminated_iff plain otherPlain]

/-! ## Different ids -/

/-- The text forms of two ids are told apart by one field. -/
structure DecidedBy (left right : ObjectId) (field : Field) : Prop where
  /-- It is the first one in which the ids differ. -/
  first : firstDifference left right = some field
  /-- What is written for it, with what ends it, decides. -/
  written : left.encode < right.encode ↔
    terminated field (field.get left) < terminated field (field.get right)
  /-- Plain values are in the order of ids. -/
  plain : PlainText (field.get left) → PlainText (field.get right) →
    (left.encode < right.encode ↔ left < right)

/-- The text forms of different ids are compared by the first field in which the ids
differ, and by nothing else: by the escaped values with what ends them, and so, if both
values are plain, as the ids themselves. -/
theorem text_order_decided (different : left ≠ right) : ∃ field, DecidedBy left right field := by
  obtain ⟨field, first⟩ := exists_firstDifference different
  exact ⟨field, first, encode_lt_encode_iff first, encode_lt_encode_iff_lt first⟩

/-- A pod in a namespace that goes on with a character before the comma comes first among
text forms and last among ids. -/
theorem bang_before_end_of_value :
    (⟨"", "Pod", "a!", "z"⟩ : ObjectId) ≠ ⟨"", "Pod", "a", "z"⟩ ∧
    DecidedBy ⟨"", "Pod", "a!", "z"⟩ ⟨"", "Pod", "a", "z"⟩ .space ∧
    (⟨"", "Pod", "a!", "z"⟩ : ObjectId).encode < (⟨"", "Pod", "a", "z"⟩ : ObjectId).encode ∧
    (⟨"", "Pod", "a", "z"⟩ : ObjectId) < ⟨"", "Pod", "a!", "z"⟩ := by
  have different : (⟨"", "Pod", "a!", "z"⟩ : ObjectId) ≠ ⟨"", "Pod", "a", "z"⟩ := by decide
  have space : firstDifference ⟨"", "Pod", "a!", "z"⟩ ⟨"", "Pod", "a", "z"⟩ = some .space := by
    decide
  obtain ⟨field, decided⟩ := text_order_decided different
  obtain rfl : Field.space = field := Option.some.inj (space.symm.trans decided.first)
  have shorter : (⟨"", "Pod", "a", "z"⟩ : ObjectId) < ⟨"", "Pod", "a!", "z"⟩ := by decide
  exact ⟨different, decided, decided.written.mpr (by decide), shorter⟩

end ObjectId

end InventoryGraph
