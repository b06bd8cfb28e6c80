import InventoryGraph.ObjectId.Code
import InventoryGraph.Proofs.Split
import Mathlib.Data.List.Nodup

/-!
# The text form determines the id

Reading an id is the exact inverse of writing it.  Each layer of the reader has
its own statement: an escaped value is read as the value it was written for
(`unescape_eq_ok_iff`), a segment as its field and value
(`readSegment_eq_ok_iff`), and a list of segments as the list of their entries,
in the order of the text and with no field twice (`readSegments_eq_ok_iff`).
Since every field must stand at its own position, only the segments of one id
remain (`ofCode_eq_ok_iff`).
-/

namespace InventoryGraph

/-! ## Results that may be failures -/

section Results

variable {ε α β : Type}

theorem Except.map_eq_ok_iff {f : α → β} {result : Except ε α} {b : β} :
    result.map f = .ok b ↔ ∃ a, result = .ok a ∧ f a = b := by
  cases result <;> simp [Except.map]

theorem Except.mapError_eq_ok_iff {ε' : Type} {f : ε → ε'} {result : Except ε α} {a : α} :
    result.mapError f = .ok a ↔ result = .ok a := by
  cases result with
  | error => exact ⟨nofun, nofun⟩
  | ok value =>
      change Except.ok value = .ok a ↔ _
      simp only [Except.ok.injEq]

theorem Except.bind_eq_ok_iff {f : α → Except ε β} {result : Except ε α} {b : β} :
    (result >>= f) = .ok b ↔ ∃ a, result = .ok a ∧ f a = .ok b := by
  cases result <;> simp [bind, Except.bind]

end Results

namespace Escape

/-! ## Escaped values -/

theorem comma_ne_mark : ',' ≠ '\\' := by
  decide

theorem equals_ne_mark : '=' ≠ '\\' := by
  decide

theorem unescape_escaped (c : Char) (rest : List Char) :
    unescape ('\\' :: c :: rest) =
      if isReserved c then (unescape rest).map (c :: ·) else .error (.invalid c) :=
  rfl

theorem unescape_cons {c : Char} (plain : c ≠ '\\') (rest : List Char) :
    unescape (c :: rest) = (unescape rest).map (c :: ·) := by
  simp [unescape, plain]

/-- Between delimiters that count, a value is read from its escaped form only. -/
theorem unescape_eq_ok_iff {raw value : List Char} (commas : Unbroken ',' raw)
    (equals : Unbroken '=' raw) : unescape raw = .ok value ↔ raw = escape value := by
  constructor
  · intro read
    induction raw using unit_induction generalizing value with
    | nil =>
        cases read
        rfl
    | mark => cases read
    | escaped c rest ih =>
        rw [unbroken_escaped_iff comma_ne_mark] at commas
        rw [unbroken_escaped_iff equals_ne_mark] at equals
        rw [unescape_escaped] at read
        split at read
        · rename_i reserved
          rcases Except.map_eq_ok_iff.mp read with ⟨value, rest_read, rfl⟩
          rw [escape_cons_of_reserved reserved, ← ih commas equals rest_read]
        · cases read
    | plain c rest plain ih =>
        rw [unbroken_cons_iff plain] at commas equals
        rw [unescape_cons plain] at read
        rcases Except.map_eq_ok_iff.mp read with ⟨value, rest_read, rfl⟩
        have unreserved : isReserved c = false := by
          simp [isReserved, plain, commas.1, equals.1]
        rw [escape_cons_of_plain unreserved, ← ih commas.2 equals.2 rest_read]
  · rintro rfl
    exact unescape_escape value

/-- An escaped value never ends right after an escape mark. -/
theorem isOpen_escape (value : List Char) : isOpen (escape value) = false := by
  induction value with
  | nil => rfl
  | cons c rest ih =>
      cases reserved : isReserved c with
      | true => rw [escape_cons_of_reserved reserved, isOpen_escaped, ih]
      | false =>
          rw [escape_cons_of_plain reserved, isOpen_cons (ne_mark_of_plain reserved), ih]

/-- No reserved character in an escaped value counts as a delimiter. -/
theorem unbroken_escape {delimiter : Char} (reserved : isReserved delimiter = true)
    (notMark : delimiter ≠ '\\') (value : List Char) :
    Unbroken delimiter (escape value) := by
  induction value with
  | nil => exact unbroken_of_not_mem List.not_mem_nil
  | cons c rest ih =>
      cases reserved' : isReserved c with
      | true =>
          rw [escape_cons_of_reserved reserved', unbroken_escaped_iff notMark]
          exact ih
      | false =>
          rw [escape_cons_of_plain reserved',
            unbroken_cons_iff (ne_mark_of_plain reserved')]
          have different : c ≠ delimiter := by
            rintro rfl
            simp [reserved] at reserved'
          exact ⟨different, ih⟩

end Escape

namespace ObjectId

open Escape

/-! ## Segments -/

namespace Field

theorem escape_tag (field : Field) : escape field.tag.toList = field.tag.toList := by
  cases field <;> rfl

theorem isOpen_tag (field : Field) : isOpen field.tag.toList = false :=
  field.escape_tag ▸ isOpen_escape field.tag.toList

theorem unbroken_tag {delimiter : Char} (reserved : isReserved delimiter = true)
    (notMark : delimiter ≠ '\\') (field : Field) : Unbroken delimiter field.tag.toList :=
  field.escape_tag ▸ unbroken_escape reserved notMark field.tag.toList

end Field

theorem isOpen_segment (field : Field) (value : String) :
    isOpen (segment field value) = false := by
  rw [segment, isOpen_append field.isOpen_tag, isOpen_cons equals_ne_mark, isOpen_escape]

/-- No comma in a segment counts as a delimiter. -/
theorem unbroken_segment (field : Field) (value : String) :
    Unbroken ',' (segment field value) := by
  rw [segment, unbroken_append comma_ne_mark field.isOpen_tag,
    unbroken_cons_iff equals_ne_mark]
  constructor
  · exact field.unbroken_tag rfl comma_ne_mark
  · exact ⟨by decide, unbroken_escape rfl comma_ne_mark value.toList⟩

theorem split_segment (field : Field) (value : String) :
    split '=' (segment field value) = [field.tag.toList, escape value.toList] := by
  have tag_unbroken : Unbroken '=' field.tag.toList := field.unbroken_tag rfl equals_ne_mark
  have value_unbroken : Unbroken '=' (escape value.toList) :=
    unbroken_escape rfl equals_ne_mark value.toList
  rw [segment, split_append_delimiter equals_ne_mark tag_unbroken field.isOpen_tag,
    split_of_unbroken equals_ne_mark value_unbroken]

/-- A segment that is read has a tag, which is new, and a value that can be
unescaped. -/
theorem of_readSegment {earlier : List Field} {raw : List Char} {entry : Entry}
    (read : readSegment earlier raw = .ok entry) :
    ∃ rawValue, split '=' raw = [entry.1.tag.toList, rawValue] ∧ entry.1 ∉ earlier ∧
      unescape rawValue = .ok entry.2.toList := by
  unfold readSegment at read
  split at read
  · rename_i tag rawValue parts
    split at read
    · cases read
    · rename_i field tagged
      split at read
      · cases read
      · rename_i new
        split at read
        · cases read
        · rename_i value unescaped
          cases read
          have tag_eq : tag = field.tag.toList := by
            rw [← Field.ofTag?_eq_some_iff.mp tagged, String.toList_ofList]
          subst tag_eq
          exact ⟨rawValue, parts, new, by simpa using unescaped⟩
  · cases read

/-- A segment between two commas is read as an entry exactly when it is the
segment of that entry and the field is new. -/
theorem readSegment_eq_ok_iff {earlier : List Field} {raw : List Char}
    (commas : Unbroken ',' raw) {entry : Entry} :
    readSegment earlier raw = .ok entry ↔
      raw = segment entry.1 entry.2 ∧ entry.1 ∉ earlier := by
  constructor
  · intro read
    rcases of_readSegment read with ⟨rawValue, parts, new, unescaped⟩
    have isSplit := (split_eq_iff equals_ne_mark).mp parts
    have raw_eq : raw = entry.1.tag.toList ++ '=' :: rawValue := by
      simpa using isSplit.joined.symm
    rw [raw_eq, unbroken_append comma_ne_mark entry.1.isOpen_tag,
      unbroken_cons_iff equals_ne_mark] at commas
    have equals : Unbroken '=' rawValue := isSplit.unbroken rawValue (by simp)
    have value_eq := (unescape_eq_ok_iff commas.2.2 equals).mp unescaped
    exact ⟨by rw [raw_eq, value_eq, segment], new⟩
  · rintro ⟨rfl, new⟩
    simp [readSegment, split_segment, new, unescape_escape]

theorem readSegments_cons_eq_ok_iff {read entries : List Entry} {raw : List Char}
    {rest : List (List Char)} :
    readSegments read (raw :: rest) = .ok entries ↔
      ∃ entry, readSegment (read.map Prod.fst) raw = .ok entry ∧
        readSegments (read ++ [entry]) rest = .ok entries := by
  rw [readSegments]
  cases readSegment (read.map Prod.fst) raw <;> simp

theorem nodup_fields_concat {read : List Entry} {entry : Entry} :
    ((read ++ [entry]).map Prod.fst).Nodup ↔
      (read.map Prod.fst).Nodup ∧ entry.1 ∉ read.map Prod.fst := by
  rw [List.map_append, List.map_singleton, ← List.concat_eq_append, List.nodup_concat,
    and_comm]

/-- Segments between commas are read as entries exactly when they are the
segments of these entries and no field occurs twice. -/
theorem readSegments_eq_ok_iff {read entries : List Entry} {raws : List (List Char)}
    (commas : ∀ raw ∈ raws, Unbroken ',' raw) (distinct : (read.map Prod.fst).Nodup) :
    readSegments read raws = .ok entries ↔
      ∃ new, entries = read ++ new ∧ (entries.map Prod.fst).Nodup ∧
        raws = new.map fun entry => segment entry.1 entry.2 := by
  induction raws generalizing read with
  | nil =>
      constructor
      · intro readAll
        cases readAll
        exact ⟨[], by simp, distinct, rfl⟩
      · rintro ⟨new, rfl, _, raws_eq⟩
        rw [List.map_eq_nil_iff.mp raws_eq.symm, List.append_nil, readSegments]
  | cons raw rest ih =>
      rw [List.forall_mem_cons] at commas
      rw [readSegments_cons_eq_ok_iff]
      constructor
      · rintro ⟨entry, first, readRest⟩
        rcases (readSegment_eq_ok_iff commas.1).mp first with ⟨raw_eq, new⟩
        have distinct' := nodup_fields_concat.mpr ⟨distinct, new⟩
        rcases (ih commas.2 distinct').mp readRest with ⟨others, rfl, nodup, rest_eq⟩
        exact ⟨entry :: others, by simp, nodup, by simp [raw_eq, rest_eq]⟩
      · rintro ⟨new, rfl, nodup, raws_eq⟩
        cases new with
        | nil => cases raws_eq
        | cons entry others =>
            rw [List.map_cons, List.cons.injEq] at raws_eq
            have regroup : read ++ entry :: others = (read ++ [entry]) ++ others := by simp
            have distinct' : ((read ++ [entry]).map Prod.fst).Nodup := by
              rw [regroup, List.map_append] at nodup
              exact (List.nodup_append.mp nodup).1
            have new := (nodup_fields_concat.mp distinct').2
            have first := (readSegment_eq_ok_iff commas.1).mpr ⟨raws_eq.1, new⟩
            have readRest := (ih commas.2 distinct').mpr ⟨others, regroup, nodup, raws_eq.2⟩
            exact ⟨entry, first, readRest⟩

/-- A list of segments is read as the list of their entries. -/
theorem readSegments_nil_eq_ok_iff {entries : List Entry} {raws : List (List Char)}
    (commas : ∀ raw ∈ raws, Unbroken ',' raw) :
    readSegments [] raws = .ok entries ↔
      (entries.map Prod.fst).Nodup ∧
        raws = entries.map fun entry => segment entry.1 entry.2 := by
  have nothing : (([] : List Entry).map Prod.fst).Nodup := List.nodup_nil
  simp only [readSegments_eq_ok_iff commas nothing, List.nil_append, exists_eq_left']

/-! ## Fields at their positions -/

/-- The entries of an id, in the order in which they are written. -/
def entries (id : ObjectId) : List Entry :=
  Field.all.map fun field => (field, field.get id)

theorem code_eq_intercalate (id : ObjectId) :
    id.code = [','].intercalate (id.entries.map fun entry => segment entry.1 entry.2) :=
  rfl

theorem isSplit_code (id : ObjectId) :
    IsSplit ',' id.code (id.entries.map fun entry => segment entry.1 entry.2) := by
  constructor
  · simp [entries, Field.all]
  · rfl
  · intro part member
    rcases List.mem_map.mp member with ⟨entry, _, rfl⟩
    exact unbroken_segment entry.1 entry.2
  · intro part member
    rcases List.mem_map.mp (List.dropLast_subset _ member) with ⟨entry, _, rfl⟩
    exact isOpen_segment entry.1 entry.2

theorem valueOf_entries (id : ObjectId) (field : Field) :
    valueOf id.entries field = .ok (field.get id) := by
  cases field <;> rfl

/-- A value that is found belongs to the entry at the position of its field. -/
theorem getElem?_of_valueOf {read : List Entry} {field : Field} {value : String}
    (found : valueOf read field = .ok value) : read[field.rank]? = some (field, value) := by
  unfold valueOf at found
  split at found
  · cases found
  · rename_i other other_value position at_position
    split at found
    · rename_i rank
      cases found
      have same : other = field := by simpa using List.find?_some at_position
      rw [← rank, ← same]
      exact List.mem_zipIdx_iff_getElem?.mp (List.mem_of_find?_eq_some at_position)
    · cases found

/-- Four entries at the positions of their fields leave no place for another. -/
theorem eq_entries_of_valueOf {read : List Entry} (distinct : (read.map Prod.fst).Nodup)
    {id : ObjectId} (found : ∀ field, valueOf read field = .ok (field.get id)) :
    read = id.entries := by
  have group := getElem?_of_valueOf (found .group)
  have kind := getElem?_of_valueOf (found .kind)
  have space := getElem?_of_valueOf (found .space)
  have name := getElem?_of_valueOf (found .name)
  rcases List.getElem?_eq_some_iff.mp name with ⟨bound, _⟩
  match read, bound with
  | first :: second :: third :: fourth :: rest, _ =>
      simp only [Field.rank, List.getElem?_cons_zero, List.getElem?_cons_succ,
        Option.some.injEq] at group kind space name
      subst first second third fourth
      cases rest with
      | nil => rfl
      | cons fifth rest =>
          rcases fifth with ⟨field, value⟩
          cases field <;> simp at distinct

theorem nodup_fields (id : ObjectId) : (id.entries.map Prod.fst).Nodup := by
  rw [entries, List.map_map]
  exact (by decide : (Field.all.map fun field => field).Nodup)

theorem ofCode_code (id : ObjectId) : ofCode id.code = .ok id := by
  have parts : split ',' id.code = id.entries.map fun entry => segment entry.1 entry.2 :=
    (isSplit_code id).split_eq comma_ne_mark
  have segmentsRead : readSegments [] (split ',' id.code) = .ok id.entries := by
    rw [parts, readSegments_nil_eq_ok_iff (isSplit_code id).unbroken]
    exact ⟨id.nodup_fields, rfl⟩
  simp only [ofCode, segmentsRead, valueOf_entries, bind, Except.bind]
  rfl

theorem eq_code_of_ofCode {chars : List Char} {id : ObjectId}
    (read : ofCode chars = .ok id) : chars = id.code := by
  rcases Except.bind_eq_ok_iff.mp read with ⟨found, segmentsRead, rest⟩
  rcases Except.bind_eq_ok_iff.mp rest with ⟨group, groupFound, rest⟩
  rcases Except.bind_eq_ok_iff.mp rest with ⟨kind, kindFound, rest⟩
  rcases Except.bind_eq_ok_iff.mp rest with ⟨space, spaceFound, rest⟩
  rcases Except.bind_eq_ok_iff.mp rest with ⟨name, nameFound, rest⟩
  cases rest
  have parts : IsSplit ',' chars (split ',' chars) := isSplit_split comma_ne_mark chars
  obtain ⟨distinct, raws_eq⟩ :=
    (readSegments_nil_eq_ok_iff parts.unbroken).mp segmentsRead
  have found_eq : found = (⟨group, kind, space, name⟩ : ObjectId).entries := by
    apply eq_entries_of_valueOf distinct
    intro field
    cases field <;> assumption
  rw [code_eq_intercalate, ← found_eq, ← raws_eq, parts.joined]

/-- The characters of an id are read as this id, and no others are. -/
theorem ofCode_eq_ok_iff {chars : List Char} {id : ObjectId} :
    ofCode chars = .ok id ↔ chars = id.code := by
  constructor
  · exact eq_code_of_ofCode
  · rintro rfl
    exact ofCode_code id

/-- A text is read as an id exactly when it is the text form of this id. -/
theorem decode_eq_ok_iff {text : String} {id : ObjectId} :
    decode text = .ok id ↔ text = id.encode := by
  have code_ne_nil : id.code ≠ [] := by
    simp [code_eq_intercalate, entries, Field.all, segment, Field.tag]
  unfold decode
  split
  · rename_i empty
    subst empty
    simp only [reduceCtorEq, false_iff]
    intro same
    apply code_ne_nil
    rw [← toList_encode, ← same, String.toList_empty]
  · rw [Except.mapError_eq_ok_iff, ofCode_eq_ok_iff, ← toList_encode, String.toList_inj]

@[simp]
theorem decode_encode (id : ObjectId) : decode id.encode = .ok id :=
  decode_eq_ok_iff.mpr rfl

theorem encode_inj {left right : ObjectId} : left.encode = right.encode ↔ left = right := by
  constructor
  · intro same
    have read := decode_encode left
    rw [same, decode_encode] at read
    exact (Except.ok.inj read).symm
  · rintro rfl
    rfl

/-- Reading and writing ids undo each other: a text is read as an id exactly when
it is what the id is written as, different ids are written differently, and every
text that no id is written as is refused. -/
theorem decode_inverts_encode :
    (∀ (text : String) (id : ObjectId), decode text = .ok id ↔ text = id.encode) ∧
      Function.Injective encode ∧
      ∀ text : String, (∃ error, decode text = .error error) ↔
        ∀ id : ObjectId, text ≠ id.encode := by
  have refused_iff : ∀ text : String, (∃ error, decode text = .error error) ↔
      ∀ id : ObjectId, text ≠ id.encode := by
    intro text
    constructor
    · rintro ⟨error, refused⟩ id rfl
      rw [decode_encode] at refused
      cases refused
    · intro noForm
      cases read : decode text with
      | error error => exact ⟨error, rfl⟩
      | ok id => exact absurd (decode_eq_ok_iff.mp read) (noForm id)
  exact ⟨fun text id => decode_eq_ok_iff, fun left right => encode_inj.mp, refused_iff⟩

end ObjectId

end InventoryGraph
