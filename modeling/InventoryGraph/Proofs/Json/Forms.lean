import InventoryGraph.Json.Form
import InventoryGraph.Proofs.Json.Literal
import InventoryGraph.Proofs.TextForm
import InventoryGraph.Settings

/-!
# JSON forms are read back

Labels, ids, the pairs that an id splits into and settings have compact JSON texts, and
each is read back from its text.  This takes two steps: JSON is read as it is written, and
each form is read from its JSON value, where every field stands under the name that the
reader looks for.  So no default takes the place of a field that was written.

An id is read from many texts besides the one that is written for it, since JSON can spell
a text in many ways.  It is read from every spelling of its text form, and from no other
JSON text (`readJson_eq_ok_iff`); a spelling of a text that is no id is refused with the
error of this text (`readJson_of_denotes`).

Main statement: `forms_read_back`.
-/

namespace InventoryGraph

open Json

/-! ## Forms from JSON values -/

theorem Label.ofJson?_toJson (label : Label) : ofJson? label.toJson = some label :=
  rfl

theorem GroupKind.ofJson?_toJson (key : GroupKind) : ofJson? key.toJson = some key :=
  rfl

theorem ObjectKey.ofJson?_toJson (key : ObjectKey) : ofJson? key.toJson = some key :=
  rfl

theorem Settings.ofJson?_toJson (settings : Settings) : ofJson? settings.toJson = some settings := by
  obtain ⟨expansion, skip, prune⟩ := settings
  cases skip <;> rfl

theorem Label.plain_toJson (label : Label) : Plain label.toJson :=
  .text label.text

theorem GroupKind.plain_toJson (key : GroupKind) : Plain key.toJson := by
  apply Plain.ofMembers
  simp only [List.forall_mem_cons]
  exact ⟨.text _, .text _, by simp⟩

theorem ObjectKey.plain_toJson (key : ObjectKey) : Plain key.toJson := by
  apply Plain.ofMembers
  simp only [List.forall_mem_cons]
  exact ⟨.text _, .text _, by simp⟩

theorem Settings.plain_toJson (settings : Settings) : Plain settings.toJson := by
  apply Plain.ofMembers
  simp only [List.forall_mem_cons]
  exact ⟨.text _, .text _, .bool _, by simp⟩

/-! ## Forms from JSON texts -/

theorem Settings.parse_render (settings : Settings) : parse settings.render = .ok settings := by
  rw [parse, render, read?_compact settings.plain_toJson, Option.bind_some, ofJson?_toJson]

namespace ObjectId

variable {json text : String}

/-- A JSON text that denotes a text is read as this text is. -/
theorem readJson_of_denotes (denotes : Denotes json text) :
    readJson json = (decode text).mapError .notId := by
  rw [readJson, read?_eq_text_iff.mpr denotes]
  rfl

/-- An id is read from the JSON texts that denote its text form and from no others. -/
theorem readJson_eq_ok_iff {id : ObjectId} :
    readJson json = .ok id ↔ Denotes json id.encode := by
  constructor
  · intro read
    unfold readJson at read
    split at read
    · cases read
    · rename_i value found
      unfold ofJson at read
      split at read
      · cases read
      · rename_i text denoted
        rw [Except.mapError_eq_ok_iff, decode_eq_ok_iff] at read
        subst read
        cases value with
        | string text? =>
            have denoted : text? = some id.encode := denoted
            rw [denoted] at found
            exact read?_eq_text_iff.mp found
        | _ => cases denoted
  · intro denotes
    rw [readJson_of_denotes denotes, decode_encode]
    rfl

theorem readJson_compact_toJson (id : ObjectId) : readJson id.toJson.compact = .ok id := by
  rw [readJson_eq_ok_iff, ← read?_eq_text_iff]
  exact read?_compact (.text id.encode)

/-- What a JSON text that denotes a text is read as: the id with this text form, or the
error of this text. -/
theorem readJson_cases (denotes : Denotes json text) :
    (∀ id, readJson json = .ok id ↔ text = id.encode) ∧
      ((∀ id : ObjectId, text ≠ id.encode) →
        ∃ error, decode text = .error error ∧ readJson json = .error (.notId error)) := by
  have read := readJson_of_denotes denotes
  constructor
  · intro id
    rw [read, Except.mapError_eq_ok_iff, decode_eq_ok_iff]
  · intro noForm
    cases outcome : decode text with
    | ok id => exact absurd (decode_eq_ok_iff.mp outcome) (noForm id)
    | error error =>
        rw [outcome] at read
        exact ⟨error, rfl, read⟩

end ObjectId

/-- Labels, pairs of group and kind, keys of objects, settings and ids are read back from
the compact JSON texts that are written for them, whatever characters they hold.  An id is
read from a JSON text exactly when the text is a string that denotes the text form of the
id; a string that denotes any other text is refused with the error of that text. -/
theorem forms_read_back :
    (∀ label : Label, (read? label.toJson.compact).bind Label.ofJson? = some label) ∧
    (∀ key : GroupKind, (read? key.toJson.compact).bind GroupKind.ofJson? = some key) ∧
    (∀ key : ObjectKey, (read? key.toJson.compact).bind ObjectKey.ofJson? = some key) ∧
    (∀ settings : Settings, Settings.parse settings.render = .ok settings) ∧
    (∀ id : ObjectId, ObjectId.readJson id.toJson.compact = .ok id) ∧
    (∀ json id, ObjectId.readJson json = .ok id ↔ Denotes json id.encode) ∧
    ∀ json text, Denotes json text →
      (∀ id, ObjectId.readJson json = .ok id ↔ text = id.encode) ∧
      ((∀ id : ObjectId, text ≠ id.encode) →
        ∃ error, ObjectId.decode text = .error error ∧
          ObjectId.readJson json = .error (.notId error)) := by
  refine ⟨?label, ?groupKind, ?objectKey, Settings.parse_render,
    ObjectId.readJson_compact_toJson, fun _ _ => ObjectId.readJson_eq_ok_iff,
    fun _ _ => ObjectId.readJson_cases⟩
  case label =>
    intro label
    rw [read?_compact label.plain_toJson, Option.bind_some, Label.ofJson?_toJson]
  case groupKind =>
    intro key
    rw [read?_compact key.plain_toJson, Option.bind_some, GroupKind.ofJson?_toJson]
  case objectKey =>
    intro key
    rw [read?_compact key.plain_toJson, Option.bind_some, ObjectKey.ofJson?_toJson]

/-- A string that spells the text form of an id with escapes which the text form does not
need, around those which it does. -/
def spelledPod : String :=
  " \"G=,K=Pod\\u002CNS=,N\\u003d\\\\\\\\\\ud83d\\ude00\""

/-- A string that spells the beginning of a text form. -/
def spelledGroup : String :=
  "\"G\\u003d\"\n"

/-- The first is read as the id, the second is refused as the text that it denotes. -/
theorem pod_read_and_group_refused :
    Denotes spelledPod "G=,K=Pod,NS=,N=\\\\😀" ∧
      ObjectId.readJson spelledPod = .ok ⟨"", "Pod", "", "\\😀"⟩ ∧
      Denotes spelledGroup "G=" ∧ (∀ id : ObjectId, "G=" ≠ id.encode) ∧
      ∃ error, ObjectId.decode "G=" = .error error ∧
        ObjectId.readJson spelledGroup = .error (.notId error) := by
  have spelled : Denotes spelledPod "G=,K=Pod,NS=,N=\\\\😀" :=
    denotes_of_tokens? (by decide +kernel)
  have written : "G=,K=Pod,NS=,N=\\\\😀" = ObjectId.encode ⟨"", "Pod", "", "\\😀"⟩ := by
    decide +kernel
  have cut : Denotes spelledGroup "G=" := denotes_of_tokens? (by decide +kernel)
  have noForm : ∀ id : ObjectId, "G=" ≠ id.encode := by
    have refused : ObjectId.decode "G=" = .error (.inText "G=" (.missingField .kind)) := by
      decide +kernel
    intro id same
    rw [same, ObjectId.decode_encode] at refused
    cases refused
  obtain ⟨_, _, _, _, _, _, literals⟩ := forms_read_back
  exact ⟨spelled, ((literals _ _ spelled).1 _).mpr written, cut, noForm,
    (literals _ _ cut).2 noForm⟩

end InventoryGraph
