import InventoryGraph.Proofs.Json.Spelling

/-!
# Quoted text is read back

What is written for a text between quotes spells it, whatever characters the text holds
(`spells_flatMap_writeChar`).

Main statement: the scan over a quoted text completes the token of the text and goes on
between tokens (`run_quote`).
-/

namespace InventoryGraph.Json

/-- The four digits of a control character are read as its number. -/
theorem codeUnit?_hexDigits {value : Nat} (small : value < 0x20) :
    codeUnit? '0' '0' (hexDigit (value / 16)) (hexDigit (value % 16)) = some value := by
  revert value
  decide

/-- What is written for a character spells it. -/
theorem Spells.writeChar_append {body text : List Char} (rest : Spells body text) (c : Char) :
    Spells (writeChar c ++ body) (c :: text) := by
  unfold writeChar
  iterate 7
    split
    · rename_i same
      subst same
      exact .short rfl rest
  split
  · rename_i control
    obtain ⟨notLead, notTrail⟩ := isLead_and_isTrail_of_lt (by omega : c.toNat < 0xD800)
    have spelled := rest.unit (codeUnit?_hexDigits control) notLead notTrail
    rwa [Char.ofNat_toNat] at spelled
  · rename_i notQuote notMark _ _ _ _ _ printable
    exact .plain notQuote notMark printable rest

/-- What is written for a text spells it. -/
theorem spells_flatMap_writeChar (text : List Char) : Spells (text.flatMap writeChar) text := by
  induction text with
  | nil => exact .nil
  | cons c text ih =>
      rw [List.flatMap_cons]
      exact ih.writeChar_append c

/-- A text in quotes is the token of the text. -/
theorem Scan.run_quote (text : String) (rest : List Char) :
    run .between ((quote text).toList ++ rest) =
      (run .between rest).map (.string (some text) :: ·) := by
  have parts : (quote text).toList ++ rest =
      '"' :: (text.toList.flatMap writeChar ++ '"' :: rest) := by
    simp [quote]
  rw [parts, (spells_flatMap_writeChar text.toList).run]

end InventoryGraph.Json
