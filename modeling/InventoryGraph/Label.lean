/-!
# Edge labels

Every edge between two objects carries a label that says how they are
connected.  Any text can be a label; the well-known ones are listed here.
Labels are ordered by their text.
-/

namespace InventoryGraph

/-- The label of an edge. -/
structure Label where
  text : String
  deriving DecidableEq, Repr, Inhabited

namespace Label

instance : Ord Label where
  compare := compareOn Label.text

theorem compare_eq (left right : Label) : compare left right = compare left.text right.text :=
  rfl

instance : Std.TransOrd Label :=
  inferInstanceAs (Std.TransCmp (compareOn Label.text))

instance : Std.LawfulEqOrd Label where
  eq_of_compare {left right} same := by
    obtain ⟨text⟩ := left
    simp only [Label.compare_eq, Std.LawfulEqOrd.compare_eq_iff_eq] at same
    simp [same]

/-- Joins the parts of one logical unit. -/
def offshoot : Label :=
  ⟨"offshoot"⟩

/-- Leads to the addresses under which an object can be reached. -/
def exposedBy : Label :=
  ⟨"exposed_by"⟩

/-- Leads to the storage that an object uses. -/
def storage : Label :=
  ⟨"storage"⟩

/-- The well-known labels, each under its constant name. -/
def wellKnown : List (String × Label) :=
  [("OFFSHOOT", offshoot),
    ("BACKUP_VIA", ⟨"backup_via"⟩),
    ("CATALOG", ⟨"catalog"⟩),
    ("CONNECT_VIA", ⟨"connect_via"⟩),
    ("EXPOSED_BY", exposedBy),
    ("MONITORED_BY", ⟨"monitored_by"⟩),
    ("OCM_BIND", ⟨"ocm_bind"⟩),
    ("POLICY", ⟨"policy"⟩),
    ("RECOMMENDED_FOR", ⟨"recommended_for"⟩),
    ("RESTORE_INTO", ⟨"restore_into"⟩),
    ("SOURCE", ⟨"source"⟩),
    ("STORAGE", storage),
    ("VIEW", ⟨"view"⟩)]

end Label

end InventoryGraph
