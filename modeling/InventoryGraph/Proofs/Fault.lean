import InventoryGraph.Proofs.TextForm
import Mathlib.Data.List.Induction

/-!
# The fault that is reported

A text can break the rules of ids in many places at once, and the reader reports one
fault.  This file says which one, without following the reader.

Segments come first, from left to right, and of a segment the first check that it
fails: its two parts, its tag, the first use of the tag, the escapes of its value
(`SegmentFault`).  Only when no segment fails do fields count, in the order in which
they are written, and each must stand at its own position (`FieldFault`).  Main
statement: reading fails with the fault that comes first in this sense, and succeeds
when there is none (`decode_reports_first_fault`).
-/

namespace InventoryGraph

theorem Except.map_eq_error_iff {ε α β : Type} {f : α → β} {result : Except ε α} {error : ε} :
    result.map f = .error error ↔ result = .error error := by
  cases result <;> simp [Except.map]

theorem Except.bind_eq_error_iff {ε α β : Type} {result : Except ε α} {next : α → Except ε β}
    {error : ε} :
    (result >>= next) = .error error ↔
      result = .error error ∨ ∃ value, result = .ok value ∧ next value = .error error := by
  cases result <;> simp [bind, Except.bind]

namespace Escape

/-! ## Escapes of a value -/

/-- An escape mark cannot be read in front of `rest`. -/
inductive BadMark : (rest : List Char) → Fault → Prop
  /-- Nothing is escaped. -/
  | dangling : BadMark [] .dangling
  /-- What is escaped needs no escape. -/
  | invalid {c : Char} {rest : List Char} (unreserved : isReserved c = false) :
      BadMark (c :: rest) (.invalid c)

/-- In a value, an escape starts right behind `front` and cannot be read. -/
def BadEscape (raw front : List Char) (fault : Fault) : Prop :=
  isOpen front = false ∧ ∃ rest, raw = front ++ '\\' :: rest ∧ BadMark rest fault

/-- The leftmost escape of a value that cannot be read has this fault. -/
def FirstBadEscape (raw : List Char) (fault : Fault) : Prop :=
  ∃ front, BadEscape raw front fault ∧
    ∀ other otherFault, BadEscape raw other otherFault → front.length ≤ other.length

theorem not_badEscape_nil (front : List Char) (fault : Fault) : ¬BadEscape [] front fault := by
  rintro ⟨_, rest, cut, _⟩
  simp at cut

/-- In front of a plain character nothing is escaped. -/
theorem badEscape_cons_iff {c : Char} (plain : c ≠ '\\') {rest front : List Char}
    {fault : Fault} :
    BadEscape (c :: rest) front fault ↔
      ∃ behind, front = [c] ++ behind ∧ BadEscape rest behind fault := by
  constructor
  · rintro ⟨closed, after, cut, bad⟩
    cases front with
    | nil =>
        rw [List.nil_append, List.cons.injEq] at cut
        exact absurd cut.1 plain
    | cons first behind =>
        rw [List.cons_append, List.cons.injEq] at cut
        obtain ⟨rfl, rest_eq⟩ := cut
        rw [isOpen_cons plain] at closed
        exact ⟨behind, rfl, closed, after, rest_eq, bad⟩
  · rintro ⟨behind, rfl, closed, after, rfl, bad⟩
    exact ⟨(isOpen_cons plain behind).trans closed, after, rfl, bad⟩

/-- An escape is bad itself, or the bad ones are behind it. -/
theorem badEscape_escaped_iff {c : Char} {rest front : List Char} {fault : Fault} :
    BadEscape ('\\' :: c :: rest) front fault ↔
      (front = [] ∧ isReserved c = false ∧ fault = .invalid c) ∨
        ∃ behind, front = ['\\', c] ++ behind ∧ BadEscape rest behind fault := by
  constructor
  · rintro ⟨closed, after, cut, bad⟩
    match front with
    | [] =>
        rw [List.nil_append, List.cons.injEq] at cut
        obtain ⟨-, rfl⟩ := cut
        cases bad with
        | invalid unreserved => exact Or.inl ⟨rfl, unreserved, rfl⟩
    | [first] =>
        rw [List.singleton_append, List.cons.injEq] at cut
        rw [← cut.1, isOpen_mark] at closed
        contradiction
    | first :: second :: behind =>
        simp only [List.cons_append, List.cons.injEq] at cut
        obtain ⟨rfl, rfl, rest_eq⟩ := cut
        exact Or.inr ⟨behind, rfl, closed, after, rest_eq, bad⟩
  · rintro (⟨rfl, unreserved, rfl⟩ | ⟨behind, rfl, closed, after, rfl, bad⟩)
    · exact ⟨rfl, c :: rest, rfl, .invalid unreserved⟩
    · exact ⟨closed, after, rfl, bad⟩

/-- Where all bad escapes lie behind a unit, the first one is the first behind it. -/
theorem firstBadEscape_iff_of_shift {raw unit rest : List Char}
    (shift : ∀ front fault, BadEscape raw front fault ↔
      ∃ behind, front = unit ++ behind ∧ BadEscape rest behind fault) {fault : Fault} :
    FirstBadEscape raw fault ↔ FirstBadEscape rest fault := by
  constructor
  · rintro ⟨front, bad, first⟩
    obtain ⟨behind, rfl, badBehind⟩ := (shift front fault).mp bad
    refine ⟨behind, badBehind, fun other otherFault otherBad => ?_⟩
    have bound := first _ otherFault ((shift _ otherFault).mpr ⟨other, rfl, otherBad⟩)
    simpa using bound
  · rintro ⟨behind, badBehind, first⟩
    refine ⟨unit ++ behind, (shift _ fault).mpr ⟨behind, rfl, badBehind⟩, ?_⟩
    intro other otherFault otherBad
    obtain ⟨otherBehind, rfl, otherBadBehind⟩ := (shift other otherFault).mp otherBad
    simpa using first otherBehind otherFault otherBadBehind

/-- A bad escape at the very start is the first one. -/
theorem BadEscape.firstBadEscape_iff {raw : List Char} {fault other : Fault}
    (bad : BadEscape raw [] fault)
    (only : ∀ otherFault, BadEscape raw [] otherFault → otherFault = fault) :
    FirstBadEscape raw other ↔ other = fault := by
  constructor
  · rintro ⟨front, otherBad, first⟩
    have bound := first [] fault bad
    rw [List.length_nil, Nat.le_zero, List.length_eq_zero_iff] at bound
    exact only other (bound ▸ otherBad)
  · rintro rfl
    exact ⟨[], bad, fun _ _ _ => Nat.zero_le _⟩

/-- An escaped value is refused for its first bad escape. -/
theorem unescape_eq_error_iff {raw : List Char} {fault : Fault} :
    unescape raw = .error fault ↔ FirstBadEscape raw fault := by
  induction raw using unit_induction with
  | nil =>
      constructor
      · nofun
      · rintro ⟨front, bad, _⟩
        exact absurd bad (not_badEscape_nil front fault)
  | mark =>
      have bad : BadEscape ['\\'] [] .dangling := ⟨rfl, [], rfl, .dangling⟩
      rw [bad.firstBadEscape_iff]
      · simp [unescape, eq_comm]
      · rintro otherFault ⟨_, rest, cut, other⟩
        rw [List.nil_append, List.cons.injEq] at cut
        obtain ⟨-, rfl⟩ := cut
        cases other
        rfl
  | escaped c rest ih =>
      rw [unescape_escaped]
      cases reserved : isReserved c with
      | true =>
          have shift : ∀ front fault, BadEscape ('\\' :: c :: rest) front fault ↔
              ∃ behind, front = ['\\', c] ++ behind ∧ BadEscape rest behind fault := by
            intro front fault
            simp [badEscape_escaped_iff, reserved]
          rw [if_pos rfl, Except.map_eq_error_iff, ih, firstBadEscape_iff_of_shift shift]
      | false =>
          have bad : BadEscape ('\\' :: c :: rest) [] (.invalid c) :=
            badEscape_escaped_iff.mpr (Or.inl ⟨rfl, reserved, rfl⟩)
          rw [if_neg Bool.false_ne_true, bad.firstBadEscape_iff]
          · simp [eq_comm]
          · intro otherFault other
            simpa [reserved] using badEscape_escaped_iff.mp other
  | plain c rest plain ih =>
      rw [unescape_cons plain, Except.map_eq_error_iff, ih]
      exact (firstBadEscape_iff_of_shift fun front fault => badEscape_cons_iff plain).symm

end Escape

namespace ObjectId

open Escape

/-! ## Segments -/

/-- A segment is a value with the tag of a field in front of it. -/
def Tagged (raw : List Char) (field : Field) : Prop :=
  ∃ value, IsSplit '=' raw [field.tag.toList, value]

/-- The first check that a segment fails behind the segments `earlier`. -/
inductive SegmentFault (earlier : List (List Char)) (raw : List Char) : DecodeFault → Prop
  /-- It is not two parts around one `=`. -/
  | malformed (unparted : ¬∃ tag value, IsSplit '=' raw [tag, value]) :
      SegmentFault earlier raw (.malformedSegment (String.ofList raw))
  /-- Its tag is that of no field. -/
  | unknown {tag value : List Char} (parts : IsSplit '=' raw [tag, value])
      (unknown : ∀ field : Field, tag ≠ field.tag.toList) :
      SegmentFault earlier raw (.unknownField (String.ofList tag))
  /-- An earlier segment has its tag. -/
  | duplicate {field : Field} (tagged : Tagged raw field)
      (used : ∃ other ∈ earlier, Tagged other field) :
      SegmentFault earlier raw (.duplicateField field)
  /-- An escape of its value cannot be read. -/
  | badEscape {field : Field} {value : List Char} {fault : Escape.Fault}
      (parts : IsSplit '=' raw [field.tag.toList, value])
      (unused : ¬∃ other ∈ earlier, Tagged other field) (bad : FirstBadEscape value fault) :
      SegmentFault earlier raw (.ofEscape fault)

/-- No segment fails a check. -/
def Sound (segments : List (List Char)) : Prop :=
  ∀ earlier raw later, segments = earlier ++ raw :: later →
    ∀ fault, ¬SegmentFault earlier raw fault

/-- The leftmost segment that fails a check has this fault. -/
def FirstSegmentFault (segments : List (List Char)) (fault : DecodeFault) : Prop :=
  ∃ earlier raw later, segments = earlier ++ raw :: later ∧ Sound earlier ∧
    SegmentFault earlier raw fault

/-! ## Fields -/

/-- What is wrong with the place of a field among the segments. -/
inductive FieldFault (segments : List (List Char)) (field : Field) : DecodeFault → Prop
  /-- No segment has its tag. -/
  | missing (absent : ∀ raw ∈ segments, ¬Tagged raw field) :
      FieldFault segments field (.missingField field)
  /-- The segment with its tag stands at another position. -/
  | outOfOrder {position : Nat} {raw : List Char} (stands : segments[position]? = some raw)
      (tagged : Tagged raw field) (misplaced : position ≠ field.rank) :
      FieldFault segments field (.outOfOrder field)

/-- The first field that is not at its place has this fault. -/
def FirstFieldFault (segments : List (List Char)) (fault : DecodeFault) : Prop :=
  ∃ field, FieldFault segments field fault ∧
    ∀ other : Field, other.rank < field.rank → ∀ otherFault,
      ¬FieldFault segments other otherFault

/-- The first fault of a text, segments before fields. -/
def FirstFault (chars : List Char) (fault : DecodeFault) : Prop :=
  ∃ segments, IsSplit ',' chars segments ∧
    (FirstSegmentFault segments fault ∨ Sound segments ∧ FirstFieldFault segments fault)

/-! ## Reading segments -/

theorem tagged_iff {raw : List Char} {field : Field} :
    Tagged raw field ↔ ∃ value, split '=' raw = [field.tag.toList, value] := by
  simp only [Tagged, split_eq_iff equals_ne_mark]

/-- A segment that is written for a field has its tag and no other. -/
theorem tagged_segment_iff {field other : Field} {value : String} :
    Tagged (segment field value) other ↔ field = other := by
  rw [tagged_iff, split_segment]
  constructor
  · rintro ⟨_, same⟩
    rw [List.cons.injEq, String.toList_inj] at same
    have found := Field.ofTag?_tag field
    rwa [same.1, Field.ofTag?_tag, Option.some.injEq, eq_comm] at found
  · rintro rfl
    exact ⟨_, rfl⟩

/-- The segments that entries are written as. -/
def written (entries : List Entry) : List (List Char) :=
  entries.map fun entry => segment entry.1 entry.2

theorem exists_tagged_written_iff {entries : List Entry} {field : Field} :
    (∃ raw ∈ written entries, Tagged raw field) ↔ field ∈ entries.map Prod.fst := by
  simp only [written, List.mem_map, exists_exists_and_eq_and, tagged_segment_iff]

/-- A segment that is refused fails a check first. -/
theorem segmentFault_of_readSegment {read : List Entry} {raw : List Char} {fault : DecodeFault}
    (refused : readSegment (read.map Prod.fst) raw = .error fault) :
    SegmentFault (written read) raw fault := by
  unfold readSegment at refused
  split at refused
  · rename_i tag value parts
    have isSplit := (split_eq_iff equals_ne_mark).mp parts
    split at refused
    · rename_i unknown
      cases refused
      refine .unknown isSplit ?_
      rintro field rfl
      simp at unknown
    · rename_i field known
      have tag_eq : tag = field.tag.toList := by
        rw [← Field.ofTag?_eq_some_iff.mp known, String.toList_ofList]
      subst tag_eq
      split at refused
      · rename_i used
        cases refused
        exact .duplicate ⟨value, isSplit⟩ (exists_tagged_written_iff.mpr used)
      · rename_i unused
        split at refused
        · rename_i bad
          cases refused
          exact .badEscape isSplit (fun used => unused (exists_tagged_written_iff.mp used))
            (unescape_eq_error_iff.mp bad)
        · cases refused
  · rename_i unparted
    cases refused
    refine .malformed ?_
    rintro ⟨tag, value, isSplit⟩
    exact unparted tag value (isSplit.split_eq equals_ne_mark)

/-- A segment is refused for the first check that it fails. -/
theorem readSegment_eq_error_iff {read : List Entry} {raw : List Char} {fault : DecodeFault} :
    readSegment (read.map Prod.fst) raw = .error fault ↔
      SegmentFault (written read) raw fault := by
  refine ⟨segmentFault_of_readSegment, fun failed => ?_⟩
  cases failed with
  | malformed unparted =>
      unfold readSegment
      split
      · rename_i tag value parts
        exact absurd ⟨tag, value, (split_eq_iff equals_ne_mark).mp parts⟩ unparted
      · rfl
  | unknown parts unknown =>
      rename_i tag value
      have unknown' : Field.ofTag? (String.ofList tag) = none := by
        apply Option.eq_none_iff_forall_ne_some.mpr
        intro field known
        apply unknown field
        rw [← Field.ofTag?_eq_some_iff.mp known, String.toList_ofList]
      simp only [readSegment, parts.split_eq equals_ne_mark, unknown']
  | duplicate tagged used =>
      rcases tagged with ⟨value, parts⟩
      have used' := exists_tagged_written_iff.mp used
      simp only [readSegment, parts.split_eq equals_ne_mark, String.ofList_toList,
        Field.ofTag?_tag, if_pos used']
  | badEscape parts unused bad =>
      have unused' := mt exists_tagged_written_iff.mpr unused
      have bad' := unescape_eq_error_iff.mpr bad
      simp only [readSegment, parts.split_eq equals_ne_mark, String.ofList_toList,
        Field.ofTag?_tag, if_neg unused', bad']

/-- The last segment is read behind all others. -/
theorem readSegments_concat (read : List Entry) (raws : List (List Char)) (raw : List Char) :
    readSegments read (raws ++ [raw]) =
      readSegments read raws >>= fun entries =>
        (readSegment (entries.map Prod.fst) raw).map fun entry => entries ++ [entry] := by
  induction raws generalizing read with
  | nil =>
      simp only [List.nil_append, readSegments, bind, Except.bind]
      cases readSegment (read.map Prod.fst) raw <;> rfl
  | cons first rest ih =>
      rw [List.cons_append, readSegments, readSegments]
      cases readSegment (read.map Prod.fst) first with
      | error fault => rfl
      | ok entry => exact ih (read ++ [entry])

/-- A place in a list with one more item at its end is the end or a place before. -/
theorem exists_cut_concat_iff {α : Type} {motive : List α → α → Prop} {items : List α}
    {last : α} :
    (∃ front item behind, items ++ [last] = front ++ item :: behind ∧ motive front item) ↔
      (∃ front item behind, items = front ++ item :: behind ∧ motive front item) ∨
        motive items last := by
  constructor
  · rintro ⟨front, item, behind, cut, holds⟩
    rcases List.eq_nil_or_concat behind with rfl | ⟨behind, other, rfl⟩
    · obtain ⟨rfl, same⟩ := List.append_inj' cut rfl
      cases same
      exact Or.inr holds
    · rw [List.concat_eq_append, ← List.cons_append, ← List.append_assoc] at cut
      obtain ⟨rfl, -⟩ := List.append_inj' cut rfl
      exact Or.inl ⟨front, item, behind, rfl, holds⟩
  · rintro (⟨front, item, behind, rfl, holds⟩ | holds)
    · exact ⟨front, item, behind ++ [last], by simp, holds⟩
    · exact ⟨items, last, [], rfl, holds⟩

theorem sound_iff {segments : List (List Char)} :
    Sound segments ↔ ¬∃ earlier raw later, segments = earlier ++ raw :: later ∧
      ∃ fault, SegmentFault earlier raw fault := by
  simp only [Sound, not_exists, not_and]

theorem sound_concat_iff {segments : List (List Char)} {raw : List Char} :
    Sound (segments ++ [raw]) ↔ Sound segments ∧ ∀ fault, ¬SegmentFault segments raw fault := by
  rw [sound_iff, exists_cut_concat_iff, not_or, ← sound_iff, not_exists]

theorem firstSegmentFault_concat_iff {segments : List (List Char)} {raw : List Char}
    {fault : DecodeFault} :
    FirstSegmentFault (segments ++ [raw]) fault ↔
      FirstSegmentFault segments fault ∨ Sound segments ∧ SegmentFault segments raw fault :=
  exists_cut_concat_iff

/-- Segments between commas are refused for the leftmost one that fails, and read when
none fails. -/
theorem readSegments_outcome {raws : List (List Char)}
    (commas : ∀ raw ∈ raws, Unbroken ',' raw) :
    (∀ fault, readSegments [] raws = .error fault ↔ FirstSegmentFault raws fault) ∧
      ((∃ entries, readSegments [] raws = .ok entries) ↔ Sound raws) := by
  induction raws using List.reverseRecOn with
  | nil => simp [readSegments, FirstSegmentFault, Sound]
  | append_singleton raws raw ih =>
      have commas' : ∀ raw ∈ raws, Unbroken ',' raw :=
        fun raw member => commas raw (List.mem_append_left _ member)
      obtain ⟨refused, accepted⟩ := ih commas'
      rw [sound_concat_iff, ← accepted, readSegments_concat]
      simp only [firstSegmentFault_concat_iff, ← refused, ← accepted]
      cases outcome : readSegments [] raws with
      | error fault => simp [bind, Except.bind]
      | ok entries =>
          obtain ⟨-, raws_eq⟩ := (readSegments_nil_eq_ok_iff commas').mp outcome
          have last : ∀ fault, readSegment (entries.map Prod.fst) raw = .error fault ↔
              SegmentFault raws raw fault := by
            intro fault
            rw [readSegment_eq_error_iff, written, ← raws_eq]
          cases step : readSegment (entries.map Prod.fst) raw with
          | error fault => simp [bind, Except.bind, Except.map, ← last, step]
          | ok entry => simp [bind, Except.bind, Except.map, ← last, step]

/-! ## Reading fields -/

theorem valueOf_of_not_mem {entries : List Entry} {field : Field}
    (absent : field ∉ entries.map Prod.fst) :
    valueOf entries field = .error (.missingField field) := by
  unfold valueOf
  split
  · rfl
  · rename_i other value position found
    have same : other = field := by simpa using List.find?_some found
    have stands := List.mem_zipIdx_iff_getElem?.mp (List.mem_of_find?_eq_some found)
    rw [same] at stands
    exact absurd (List.mem_map_of_mem (List.mem_of_getElem? stands)) absent

/-- Where fields are distinct, a field stands at one position. -/
theorem position_eq_of_getElem? {entries : List Entry}
    (distinct : (entries.map Prod.fst).Nodup) {field : Field} {value otherValue : String}
    {position otherPosition : Nat} (stands : entries[position]? = some (field, value))
    (otherStands : entries[otherPosition]? = some (field, otherValue)) :
    position = otherPosition := by
  obtain ⟨bound, entry_eq⟩ := List.getElem?_eq_some_iff.mp stands
  obtain ⟨otherBound, otherEntry_eq⟩ := List.getElem?_eq_some_iff.mp otherStands
  have fieldBound : position < (entries.map Prod.fst).length := by simpa using bound
  have otherFieldBound : otherPosition < (entries.map Prod.fst).length := by
    simpa using otherBound
  have same : (entries.map Prod.fst)[position] = (entries.map Prod.fst)[otherPosition] := by
    simp [entry_eq, otherEntry_eq]
  exact distinct.getElem_inj_iff.mp same

/-- A field that occurs once has its value from there. -/
theorem valueOf_of_getElem? {entries : List Entry} (distinct : (entries.map Prod.fst).Nodup)
    {field : Field} {value : String} {position : Nat}
    (stands : entries[position]? = some (field, value)) :
    valueOf entries field =
      if position = field.rank then .ok value else .error (.outOfOrder field) := by
  unfold valueOf
  split
  · rename_i nowhere
    have other := List.find?_eq_none.mp nowhere ((field, value), position)
      (List.mem_zipIdx_iff_getElem?.mpr stands)
    simp at other
  · rename_i otherField otherValue otherPosition found
    have same : otherField = field := by simpa using List.find?_some found
    have otherStands := List.mem_zipIdx_iff_getElem?.mp (List.mem_of_find?_eq_some found)
    subst same
    obtain rfl := position_eq_of_getElem? distinct stands otherStands
    rw [stands, Option.some.injEq, Prod.mk.injEq] at otherStands
    rw [otherStands.2]

theorem getElem?_written_iff {entries : List Entry} {position : Nat} {raw : List Char} :
    (written entries)[position]? = some raw ↔
      ∃ field value, entries[position]? = some (field, value) ∧ segment field value = raw := by
  simp [written]

/-- A field is refused for its place. -/
theorem valueOf_eq_error_iff {entries : List Entry} (distinct : (entries.map Prod.fst).Nodup)
    {field : Field} {fault : DecodeFault} :
    valueOf entries field = .error fault ↔ FieldFault (written entries) field fault := by
  by_cases present : field ∈ entries.map Prod.fst
  · obtain ⟨⟨field, value⟩, member, rfl⟩ := List.mem_map.mp present
    obtain ⟨position, stands⟩ := List.getElem?_of_mem member
    have segmentStands := getElem?_written_iff.mpr ⟨field, value, stands, rfl⟩
    rw [valueOf_of_getElem? distinct stands]
    constructor
    · intro refused
      split at refused
      · cases refused
      · rename_i misplaced
        cases refused
        exact .outOfOrder segmentStands (tagged_segment_iff.mpr rfl) misplaced
    · rintro (absent | ⟨otherStands, tagged, misplaced⟩)
      · exact absurd (tagged_segment_iff.mpr rfl)
          (absent _ (List.mem_of_getElem? segmentStands))
      · obtain ⟨otherField, otherValue, entryStands, rfl⟩ :=
          getElem?_written_iff.mp otherStands
        obtain rfl := tagged_segment_iff.mp tagged
        rw [position_eq_of_getElem? distinct stands entryStands, if_neg misplaced]
  · rw [valueOf_of_not_mem present, Except.error.injEq]
    have absent : ∀ raw ∈ written entries, ¬Tagged raw field := by
      intro raw member tagged
      exact present (exists_tagged_written_iff.mp ⟨raw, member, tagged⟩)
    constructor
    · rintro rfl
      exact .missing absent
    · rintro (_ | ⟨stands, tagged, _⟩)
      · rfl
      · exact absurd tagged (absent _ (List.mem_of_getElem? stands))

namespace Field

variable {motive : Field → Prop}

theorem exists_iff :
    (∃ field, motive field) ↔ motive group ∨ motive kind ∨ motive space ∨ motive name := by
  constructor
  · rintro ⟨_ | _ | _ | _, holds⟩ <;> simp [holds]
  · rintro (holds | holds | holds | holds) <;> exact ⟨_, holds⟩

theorem forall_iff :
    (∀ field, motive field) ↔ motive group ∧ motive kind ∧ motive space ∧ motive name := by
  constructor
  · intro holds
    exact ⟨holds _, holds _, holds _, holds _⟩
  · rintro ⟨group, kind, space, name⟩ (_ | _ | _ | _) <;> assumption

end Field

/-- The first fault of a field is that of a field without value behind fields with
values. -/
theorem firstFieldFault_iff {entries : List Entry} (distinct : (entries.map Prod.fst).Nodup)
    {fault : DecodeFault} :
    FirstFieldFault (written entries) fault ↔
      ∃ field, valueOf entries field = .error fault ∧
        ∀ other : Field, other.rank < field.rank → ∃ value, valueOf entries other = .ok value := by
  have settled : ∀ other, (∀ otherFault, ¬FieldFault (written entries) other otherFault) ↔
      ∃ value, valueOf entries other = .ok value := by
    intro other
    simp only [← valueOf_eq_error_iff distinct]
    cases valueOf entries other <;> simp
  simp only [FirstFieldFault, settled, valueOf_eq_error_iff distinct]

/-- The values of the four fields, or the first fault of a field. -/
def ofEntries (entries : List Entry) : Except DecodeFault ObjectId := do
  let group ← valueOf entries .group
  let kind ← valueOf entries .kind
  let space ← valueOf entries .space
  let name ← valueOf entries .name
  return ⟨group, kind, space, name⟩

theorem ofCode_eq_bind (chars : List Char) :
    ofCode chars = readSegments [] (split ',' chars) >>= ofEntries :=
  rfl

theorem ofEntries_eq_error_iff {entries : List Entry}
    (distinct : (entries.map Prod.fst).Nodup) {fault : DecodeFault} :
    ofEntries entries = .error fault ↔ FirstFieldFault (written entries) fault := by
  rw [firstFieldFault_iff distinct]
  simp only [ofEntries, Except.bind_eq_error_iff, Field.exists_iff, Field.forall_iff, Field.rank]
  -- No value that is read before decides about the fault of a later field.
  simp only [pure, Except.pure, reduceCtorEq, and_false, exists_false, or_false,
    exists_and_right]
  grind

/-! ## Reading ids -/

/-- The segments are those of the split. -/
theorem firstFault_iff {chars : List Char} {fault : DecodeFault} :
    FirstFault chars fault ↔ FirstSegmentFault (split ',' chars) fault ∨
      Sound (split ',' chars) ∧ FirstFieldFault (split ',' chars) fault := by
  simp only [FirstFault, ← split_eq_iff comma_ne_mark, exists_eq_left']

/-- The characters of a text are refused for their first fault. -/
theorem ofCode_eq_error_iff {chars : List Char} {fault : DecodeFault} :
    ofCode chars = .error fault ↔ FirstFault chars fault := by
  have parts := isSplit_split comma_ne_mark chars
  obtain ⟨refused, accepted⟩ := readSegments_outcome parts.unbroken
  rw [ofCode_eq_bind, firstFault_iff, ← refused, ← accepted]
  cases outcome : readSegments [] (split ',' chars) with
  | error found => simp [bind, Except.bind]
  | ok entries =>
      obtain ⟨distinct, raws_eq⟩ := (readSegments_nil_eq_ok_iff parts.unbroken).mp outcome
      rw [raws_eq, ← written, ← ofEntries_eq_error_iff distinct]
      simp [bind, Except.bind]

/-- A text has one first fault at most. -/
theorem FirstFault.eq {chars : List Char} {fault other : DecodeFault}
    (first : FirstFault chars fault) (otherFirst : FirstFault chars other) : fault = other := by
  rw [← ofCode_eq_error_iff] at first otherFirst
  exact Except.error.inj (first.symm.trans otherFirst)

theorem decode_eq_error_iff {text : String} {error : DecodeError} :
    decode text = .error error ↔
      (text = "" ∧ error = .empty) ∨
        (text ≠ "" ∧ ∃ fault, FirstFault text.toList fault ∧ error = .inText text fault) := by
  unfold decode
  split
  · rename_i empty
    simp [empty, eq_comm]
  · rename_i nonempty
    simp only [nonempty, ← ofCode_eq_error_iff, false_and, ne_eq, not_false_eq_true, true_and,
      false_or]
    cases ofCode text.toList with
    | error fault => simp [Except.mapError, eq_comm]
    | ok id => simp [Except.mapError]

/-- The empty text is refused as such.  Any other text is refused for its first fault,
with the text itself in the error, and is read as an id when it has no fault. -/
theorem decode_reports_first_fault (text : String) :
    (∀ error, decode text = .error error ↔
      (text = "" ∧ error = .empty) ∨
        (text ≠ "" ∧ ∃ fault, FirstFault text.toList fault ∧ error = .inText text fault)) ∧
    ((∃ id, decode text = .ok id) ↔ text ≠ "" ∧ ∀ fault, ¬FirstFault text.toList fault) := by
  refine ⟨fun error => decode_eq_error_iff, ?accepted⟩
  case accepted =>
    constructor
    · rintro ⟨id, read⟩
      have nonempty : text ≠ "" := by
        rintro rfl
        cases read
      refine ⟨nonempty, fun fault first => ?_⟩
      rw [decode_eq_error_iff.mpr (Or.inr ⟨nonempty, fault, first, rfl⟩)] at read
      cases read
    · rintro ⟨nonempty, faultless⟩
      cases outcome : decode text with
      | ok id => exact ⟨id, rfl⟩
      | error error =>
          rcases decode_eq_error_iff.mp outcome with ⟨empty, _⟩ | ⟨_, fault, first, _⟩
          · exact absurd empty nonempty
          · exact absurd first (faultless fault)

-- The second segment is reported, not the third, the missing group or the order.
example :
    decode "K=a,X=\\b,N" = .error (.inText "K=a,X=\\b,N" (.unknownField "X")) := by
  decide +kernel

end ObjectId

end InventoryGraph
