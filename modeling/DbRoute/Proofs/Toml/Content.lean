import DbRoute.Toml.Document
import Mathlib.Data.List.Forall2

/-!
# What items say

Every item has a content, unless one of its tables has the reserved key first; and only
scalars say scalars.
-/

namespace DbRoute.Toml

variable {item : Item} {items : List Item} {entries : Entries}

/-- A table that spells no date and no time, whatever is under its keys. -/
def Entries.Plain (entries : Entries) : Prop := ∀ entry ∈ entries.head?, entry.1 ≠ dateTimeKey

/-- No table of the item has the reserved key first. -/
inductive Item.Unreserved : Item → Prop
  | scalar (value : Scalar) : Unreserved (.scalar value)
  | array {items : List Item} : (∀ item ∈ items, Unreserved item) → Unreserved (.array items)
  | table {origin : Origin} {entries : Entries} :
      entries.Plain → (∀ entry ∈ entries, Unreserved entry.2) → Unreserved (.table origin entries)
  | tables {earlier : List Entries} {last : Entries} :
      (∀ entries ∈ earlier, entries.Plain) → last.Plain →
      (∀ entries ∈ earlier, ∀ entry ∈ entries, Unreserved entry.2) →
      (∀ entry ∈ last, Unreserved entry.2) → Unreserved (.tables earlier last)

def Item.isScalar : Item → Bool
  | .scalar _ => true
  | _ => false

def Content.isScalar : Content → Bool
  | .scalar _ => true
  | _ => false

theorem contents?_eq_mapM (items : List Item) : contents? items = items.mapM Item.content? := by
  induction items with
  | nil => rfl
  | cons item items ih =>
      rw [contents?, ih, List.mapM_cons]

theorem tableContents?_eq_mapM (tables : List Entries) :
    tableContents? tables = tables.mapM tableContent? := by
  induction tables with
  | nil => rfl
  | cons entries tables ih =>
      rw [tableContents?, ih, List.mapM_cons]

theorem Entries.Plain.tableContent? (h : entries.Plain) :
    tableContent? entries = (entryContents? entries).map .table := by
  cases entries with
  | nil => rfl
  | cons entry entries =>
      have hkey : entry.1 ≠ dateTimeKey := h entry rfl
      rw [Toml.tableContent?, if_neg hkey, entryContents?]
      cases entry.2.content? with
      | none => rfl
      | some first => cases entryContents? entries <;> rfl

section

variable {α β : Type} {f : α → Option β} {xs : List α}

theorem exists_mapM (h : ∀ x ∈ xs, ∃ y, f x = some y) :
    ∃ ys, xs.mapM f = some ys := by
  induction xs with
  | nil => exact ⟨[], rfl⟩
  | cons x xs ih =>
      obtain ⟨⟨y, hy⟩, hxs⟩ := List.forall_mem_cons.mp h
      obtain ⟨ys, hys⟩ := ih hxs
      exact ⟨y :: ys, by simp [List.mapM_cons, hy, hys]⟩

end

theorem exists_entryContents? {P : Item → Content → Prop}
    (h : ∀ entry ∈ entries, ∃ content, entry.2.content? = some content ∧ P entry.2 content) :
    ∃ contents, entryContents? entries = some contents ∧
      List.Forall₂ (fun entry content => content.1 = entry.1 ∧ P entry.2 content.2)
        entries contents := by
  induction entries with
  | nil => exact ⟨[], rfl, .nil⟩
  | cons entry entries ih =>
      obtain ⟨⟨content, hcontent, hP⟩, hentries⟩ := List.forall_mem_cons.mp h
      obtain ⟨contents, hcontents, hall⟩ := ih hentries
      exact ⟨(entry.1, content) :: contents, by simp [entryContents?, hcontent, hcontents],
        .cons ⟨rfl, hP⟩ hall⟩

namespace Item.Unreserved

theorem exists_content? (h : item.Unreserved) :
    ∃ content, item.content? = some content ∧ content.isScalar = item.isScalar := by
  have htable : ∀ {entries : Entries}, entries.Plain →
      (∀ entry ∈ entries, ∃ content, entry.2.content? = some content ∧
        content.isScalar = entry.2.isScalar) →
      ∃ contents, tableContent? entries = some (.table contents) := by
    intro entries hplain h
    obtain ⟨contents, hcontents, _⟩ :=
      exists_entryContents? (P := fun item content => content.isScalar = item.isScalar) h
    exact ⟨contents, by rw [hplain.tableContent?, hcontents]; rfl⟩
  induction h with
  | scalar value => exact ⟨.scalar value, rfl, rfl⟩
  | array _ ih =>
      obtain ⟨contents, hcontents⟩ :=
        exists_mapM fun item hitem => (ih item hitem).imp fun _ => And.left
      exact ⟨.array contents, by rw [content?, contents?_eq_mapM, hcontents]; rfl, rfl⟩
  | table hplain _ ih =>
      obtain ⟨contents, hcontents⟩ := htable hplain ih
      exact ⟨.table contents, hcontents, rfl⟩
  | @tables earlier last hearlier hlast _ _ ihearlier ihlast =>
      obtain ⟨final, hfinal⟩ := htable hlast ihlast
      have hsay : ∀ entries ∈ earlier, ∃ content, tableContent? entries = some content := by
        intro entries hmem
        obtain ⟨contents, hcontents⟩ := htable (hearlier entries hmem) (ihearlier entries hmem)
        exact ⟨_, hcontents⟩
      obtain ⟨tables, htables⟩ := exists_mapM hsay
      refine ⟨.array (tables ++ [.table final]), ?_, rfl⟩
      rw [content?, tableContents?_eq_mapM, htables, hfinal]
      rfl

end Item.Unreserved

end DbRoute.Toml
