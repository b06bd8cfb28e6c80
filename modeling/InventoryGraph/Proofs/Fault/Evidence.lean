import InventoryGraph.Proofs.Fault
import Mathlib.Data.List.Perm.Subperm

/-!
# What a fault tells of the whole text

The reader finds faults in segments and values, while its errors speak of the text that
was read.  They speak the truth: an escape that cannot be read in a value cannot be read
in the text either (`exists_badEscape_of_firstFault`), as a part that ends in the middle
of an escape is the last one.

Faults of fields are bounded by the number of segments.  Segments that pass their checks
have distinct fields, so there are four at most (`Sound.length_le_four`), and four leave
no field out.  The last field is never the first one out of order, since the fields
before it take up the other positions (`Sound.not_outOfOrder_name`).

All of this together is what the outcome of reading a text says about it
(`decode_truthful`).
-/

namespace InventoryGraph

namespace Escape

/-! ## Parts in their text -/

variable {delimiter : Char}

/-- Without its first part, and the delimiter behind it, a split is one of the rest. -/
theorem IsSplit.behind_first {text first next : List Char} {parts : List (List Char)}
    (isSplit : IsSplit delimiter text (first :: next :: parts)) :
    ∃ rest, text = first ++ delimiter :: rest ∧ isOpen first = false ∧
      IsSplit delimiter rest (next :: parts) := by
  rcases isSplit with ⟨-, joined, unbroken, closed⟩
  rw [List.forall_mem_cons] at unbroken
  rw [List.dropLast_cons_cons, List.forall_mem_cons] at closed
  refine ⟨[delimiter].intercalate (next :: parts), ?_, closed.1,
    ⟨List.cons_ne_nil _ _, rfl, unbroken.2, closed.2⟩⟩
  rw [← joined, List.intercalate_cons_cons, List.append_assoc, List.singleton_append]

/-- In front of a part, a text does not end right after an escape mark, and behind the
last part there is nothing. -/
theorem IsSplit.exists_eq_append (notMark : delimiter ≠ '\\') {text part : List Char}
    {earlier later : List (List Char)}
    (isSplit : IsSplit delimiter text (earlier ++ part :: later)) :
    ∃ front back, text = front ++ part ++ back ∧ isOpen front = false ∧
      (isOpen part = true → back = []) := by
  induction earlier generalizing text with
  | nil =>
      cases later with
      | nil => exact ⟨[], [], by simpa using isSplit.joined.symm, rfl, fun _ => rfl⟩
      | cons next later =>
          obtain ⟨rest, text_eq, closed, -⟩ := isSplit.behind_first
          refine ⟨[], delimiter :: rest, text_eq, rfl, fun opened => ?_⟩
          rw [closed] at opened
          contradiction
  | cons first earlier ih =>
      have behind : ∃ rest, text = first ++ delimiter :: rest ∧ isOpen first = false ∧
          IsSplit delimiter rest (earlier ++ part :: later) := by
        cases earlier with
        | nil => exact isSplit.behind_first
        | cons next earlier => exact isSplit.behind_first
      rcases behind with ⟨rest, rfl, closed, restSplit⟩
      rcases ih restSplit with ⟨front, back, rfl, frontClosed, last⟩
      have front_eq : isOpen (first ++ delimiter :: front) = false := by
        rw [isOpen_append closed, isOpen_cons notMark, frontClosed]
      exact ⟨first ++ delimiter :: front, back, by simp, front_eq, last⟩

/-- A bad escape of what stands behind a closed text is one of the whole. -/
theorem BadEscape.append {front raw before back : List Char} {fault : Fault}
    (bad : BadEscape raw before fault) (closed : isOpen front = false)
    (last : isOpen raw = true → back = []) :
    BadEscape (front ++ raw ++ back) (front ++ before) fault := by
  rcases bad with ⟨beforeClosed, rest, rfl, bad⟩
  refine ⟨(isOpen_append closed before).trans beforeClosed, rest ++ back, by simp, ?_⟩
  cases bad with
  | dangling =>
      rw [last ((isOpen_append beforeClosed ['\\']).trans isOpen_mark)]
      exact .dangling
  | invalid unreserved => exact .invalid unreserved

end Escape

namespace DecodeFault

theorem ofEscape_inj {fault other : Escape.Fault} :
    ofEscape fault = ofEscape other ↔ fault = other := by
  cases fault <;> cases other <;> simp [ofEscape]

end DecodeFault

namespace ObjectId

open Escape

/-! ## Escapes -/

/-- An escape that is reported is one of the whole text. -/
theorem exists_badEscape_of_firstFault {chars : List Char} {fault : Escape.Fault}
    (first : FirstFault chars (.ofEscape fault)) : ∃ front, BadEscape chars front fault := by
  generalize reported_eq : DecodeFault.ofEscape fault = reported at first
  rcases first with
    ⟨segments, isSplit, ⟨earlier, raw, later, rfl, -, failed⟩ | ⟨-, field, failed, -⟩⟩
  · rcases isSplit.exists_eq_append comma_ne_mark with ⟨front, back, rfl, closed, last⟩
    cases failed with
    | badEscape parts unused firstBad =>
        rename_i field value other
        rcases firstBad with ⟨before, bad, -⟩
        have raw_eq : raw = field.tag.toList ++ ['='] ++ value := by
          simpa using parts.joined.symm
        have tagClosed : isOpen (field.tag.toList ++ ['=']) = false := by
          rw [isOpen_append field.isOpen_tag, isOpen_cons equals_ne_mark, isOpen_nil]
        rw [DecodeFault.ofEscape_inj.mp reported_eq]
        have inRaw := bad.append tagClosed fun _ => rfl
        rw [List.append_nil, ← raw_eq] at inRaw
        exact ⟨_, inRaw.append closed last⟩
    | _ => cases fault <;> cases reported_eq
  · cases failed <;> cases fault <;> cases reported_eq

/-! ## Numbers of segments -/

/-- Segments that pass their checks are written for distinct fields. -/
theorem Sound.exists_written {segments : List (List Char)} (sound : Sound segments)
    (commas : ∀ raw ∈ segments, Unbroken ',' raw) :
    ∃ entries : List Entry, (entries.map Prod.fst).Nodup ∧ segments = written entries := by
  rcases (readSegments_outcome commas).2.mpr sound with ⟨entries, read⟩
  exact ⟨entries, (readSegments_nil_eq_ok_iff commas).mp read⟩

theorem Field.length_le_four {fields : List Field} (distinct : fields.Nodup) :
    fields.length ≤ 4 := by
  have listed : fields ⊆ Field.all := by
    intro field _
    cases field <;> simp [Field.all]
  exact (List.subperm_of_subset distinct listed).length_le

/-- Every position but the last is the place of a field before the last one. -/
theorem Field.exists_rank_eq {position : Nat} (bound : position < 4)
    (other : position ≠ name.rank) : ∃ field : Field, field.rank = position ∧ field ≠ name := by
  match position, bound with
  | 0, _ => exact ⟨group, rfl, nofun⟩
  | 1, _ => exact ⟨kind, rfl, nofun⟩
  | 2, _ => exact ⟨space, rfl, nofun⟩
  | 3, _ => contradiction

theorem Field.rank_lt_of_ne_name {field : Field} (other : field ≠ name) :
    field.rank < name.rank := by
  cases field <;> simp_all [rank]

/-- When the fields before it are at their places, the last one is too. -/
theorem Sound.not_outOfOrder_name {segments : List (List Char)} (sound : Sound segments)
    (commas : ∀ raw ∈ segments, Unbroken ',' raw) :
    ¬FirstFieldFault segments (.outOfOrder .name) := by
  rcases sound.exists_written commas with ⟨entries, distinct, rfl⟩
  rintro ⟨_, failed, settled⟩
  cases failed with
  | outOfOrder stands tagged misplaced =>
      rename_i position raw
      rcases getElem?_written_iff.mp stands with ⟨field, value, entryStands, rfl⟩
      rcases tagged_segment_iff.mp tagged with rfl
      have bound : position < 4 := by
        have length_le := Field.length_le_four distinct
        rw [List.length_map] at length_le
        exact Nat.lt_of_lt_of_le (List.getElem?_eq_some_iff.mp entryStands).1 length_le
      -- The position is that of another field, which has been found to stand there.
      rcases Field.exists_rank_eq bound misplaced with ⟨other, rfl, different⟩
      cases found : valueOf entries other with
      | error fault =>
          have otherFailed := (valueOf_eq_error_iff distinct).mp found
          exact settled other (Field.rank_lt_of_ne_name different) fault otherFailed
      | ok otherValue =>
          have otherStands := getElem?_of_valueOf found
          rw [entryStands, Option.some.injEq, Prod.mk.injEq] at otherStands
          exact different otherStands.1.symm

/-- Segments that pass their checks and leave a field out are fewer than four. -/
theorem Sound.length_lt_of_missing {segments : List (List Char)} (sound : Sound segments)
    (commas : ∀ raw ∈ segments, Unbroken ',' raw) {field other : Field}
    (missing : FieldFault segments field (.missingField other)) : segments.length < 4 := by
  rcases sound.exists_written commas with ⟨entries, distinct, rfl⟩
  cases missing with
  | missing absent =>
      have unlisted : field ∉ entries.map Prod.fst := by
        rw [← exists_tagged_written_iff]
        rintro ⟨raw, member, tagged⟩
        exact absent raw member tagged
      have length_le := Field.length_le_four (List.nodup_cons.mpr ⟨unlisted, distinct⟩)
      rw [List.length_cons, List.length_map] at length_le
      rwa [written, List.length_map]

theorem Sound.length_le_four {segments : List (List Char)} (sound : Sound segments)
    (commas : ∀ raw ∈ segments, Unbroken ',' raw) : segments.length ≤ 4 := by
  rcases sound.exists_written commas with ⟨entries, distinct, rfl⟩
  simpa [written] using Field.length_le_four distinct

/-- The text form of an id has four segments. -/
theorem length_of_decode_eq_ok {text : String} {id : ObjectId} (read : decode text = .ok id) :
    (split ',' text.toList).length = 4 := by
  rw [decode_eq_ok_iff.mp read, toList_encode, (isSplit_code id).split_eq comma_ne_mark]
  rfl

/-- A single segment has neither fault of a field. -/
theorem SegmentFault.ne_missing_and_ne_outOfOrder {earlier : List (List Char)}
    {raw : List Char} {fault : DecodeFault} (failed : SegmentFault earlier raw fault)
    (field : Field) : fault ≠ .missingField field ∧ fault ≠ .outOfOrder field := by
  cases failed with
  | badEscape parts unused bad =>
      rename_i escapeFault
      cases escapeFault <;> exact ⟨nofun, nofun⟩
  | _ => exact ⟨nofun, nofun⟩

/-! ## The whole text -/

/-- What comes of reading a text tells the truth about all of it. -/
structure Truthful (text : String) : Prop where
  /-- An escape that is left hanging hangs at the end of the text. -/
  dangling : ∀ input, decode text = .error (.inText input .danglingEscape) →
    Odd (marksAtEnd text.toList)
  /-- With an escape hanging at its end, a text is no id. -/
  unfinished : Odd (marksAtEnd text.toList) → ∀ id, decode text ≠ .ok id
  /-- A character that must not be escaped is none of the three that may be, and stands
  in the text right behind an odd number of escape marks. -/
  invalid : ∀ input c, decode text = .error (.inText input (.invalidEscape c)) →
    c ≠ '\\' ∧ c ≠ ',' ∧ c ≠ '=' ∧
      ∃ front behind, text.toList = front ++ c :: behind ∧ Odd (marksAtEnd front)
  /-- Four segments leave no field out. -/
  enough : 4 ≤ (split ',' text.toList).length →
    ∀ input field, decode text ≠ .error (.inText input (.missingField field))
  /-- Among five segments a single one is at fault. -/
  many : 5 ≤ (split ',' text.toList).length →
    ∃ fault, decode text = .error (.inText text fault) ∧
      FirstSegmentFault (split ',' text.toList) fault ∧
      ∀ field, fault ≠ .missingField field ∧ fault ≠ .outOfOrder field
  /-- Less than four segments are no id. -/
  few : (split ',' text.toList).length < 4 → ∀ id, decode text ≠ .ok id
  /-- The last field is not the first one out of order. -/
  last : ∀ input, decode text ≠ .error (.inText input (.outOfOrder .name))

theorem firstFault_of_decode {text input : String} {fault : DecodeFault}
    (refused : decode text = .error (.inText input fault)) :
    FirstFault text.toList fault := by
  rcases decode_eq_error_iff.mp refused with ⟨_, other⟩ | ⟨_, found, first, same⟩
  · cases other
  · cases same
    exact first

theorem isOpen_code (id : ObjectId) : isOpen id.code = false := by
  simp [code, Field.all, isOpen_append, isOpen_segment, isOpen_cons]

theorem unbroken_of_mem_split {chars : List Char} :
    ∀ raw ∈ split ',' chars, Unbroken ',' raw :=
  (isSplit_split comma_ne_mark chars).unbroken

/-- Whatever the text, what is said of it is true: hanging and wrong escapes are where the
error says, and errors about fields occur only with segments too few or misplaced. -/
theorem decode_truthful (text : String) : Truthful text where
  dangling input refused := by
    have first : FirstFault text.toList (.ofEscape .dangling) := firstFault_of_decode refused
    rcases exists_badEscape_of_firstFault first with ⟨front, closed, rest, text_eq, bad⟩
    cases bad
    rw [← isOpen_iff_odd_marksAtEnd, text_eq, isOpen_append closed, isOpen_mark]
  unfinished odd id read := by
    rw [decode_eq_ok_iff.mp read, toList_encode, ← isOpen_iff_odd_marksAtEnd, isOpen_code] at odd
    contradiction
  invalid input c refused := by
    have first : FirstFault text.toList (.ofEscape (.invalid c)) := firstFault_of_decode refused
    rcases exists_badEscape_of_firstFault first with ⟨front, closed, rest, text_eq, bad⟩
    cases bad with
    | invalid unreserved =>
        rename_i behind
        simp only [isReserved, Bool.or_eq_false_iff, decide_eq_false_iff_not] at unreserved
        refine ⟨unreserved.1.1, unreserved.1.2, unreserved.2, front ++ ['\\'], behind, ?_, ?_⟩
        · simpa using text_eq
        · rw [← isOpen_iff_odd_marksAtEnd, isOpen_append closed, isOpen_mark]
  enough four input field refused := by
    rcases firstFault_iff.mp (firstFault_of_decode refused) with
      ⟨_, _, _, _, _, failed⟩ | ⟨sound, _, failed, _⟩
    · exact (failed.ne_missing_and_ne_outOfOrder field).1 rfl
    · have short := sound.length_lt_of_missing unbroken_of_mem_split failed
      omega
  many five := by
    cases outcome : decode text with
    | ok id =>
        rw [length_of_decode_eq_ok outcome] at five
        contradiction
    | error error =>
        rcases decode_eq_error_iff.mp outcome with ⟨rfl, _⟩ | ⟨_, fault, first, rfl⟩
        · contradiction
        · rcases firstFault_iff.mp first with firstSegment | ⟨sound, _⟩
          · refine ⟨fault, rfl, firstSegment, ?_⟩
            rcases firstSegment with ⟨_, _, _, _, _, failed⟩
            exact failed.ne_missing_and_ne_outOfOrder
          · have few := sound.length_le_four unbroken_of_mem_split
            omega
  few short id read := by
    rw [length_of_decode_eq_ok read] at short
    contradiction
  last input refused := by
    rcases firstFault_iff.mp (firstFault_of_decode refused) with
      ⟨_, _, _, _, _, failed⟩ | ⟨sound, failed⟩
    · exact (failed.ne_missing_and_ne_outOfOrder .name).2 rfl
    · exact sound.not_outOfOrder_name unbroken_of_mem_split failed

/-- Five segments, of which the second has a wrong escape and the last a hanging one. -/
def damaged : String :=
  "G=a,K=\\\\\\x,NS=b,N=c,N=\\"

/-- The wrong escape is reported, and the text would be no id without it. -/
theorem damaged_refused :
    decode damaged = .error (.inText damaged (.invalidEscape 'x')) ∧
      (∃ front behind, damaged.toList = front ++ 'x' :: behind ∧ Odd (marksAtEnd front)) ∧
      Odd (marksAtEnd damaged.toList) ∧ (∀ id, decode damaged ≠ .ok id) ∧
      5 ≤ (split ',' damaged.toList).length ∧
      ∃ fault, decode damaged = .error (.inText damaged fault) ∧
        FirstSegmentFault (split ',' damaged.toList) fault := by
  have refused : decode damaged = .error (.inText damaged (.invalidEscape 'x')) := by
    decide +kernel
  have hanging : Odd (marksAtEnd damaged.toList) := by
    decide +kernel
  have five : 5 ≤ (split ',' damaged.toList).length := by
    decide +kernel
  have truthful := decode_truthful damaged
  rcases truthful.many five with ⟨fault, reported, first, _⟩
  exact ⟨refused, (truthful.invalid _ _ refused).2.2.2, hanging, truthful.unfinished hanging,
    five, fault, reported, first⟩

end ObjectId

end InventoryGraph
