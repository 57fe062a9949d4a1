import SqlScript.Catalog.Basic
import SqlScript.Proofs.Text.Folding

/-!
Names of tables and columns in another case. They are looked up in lower case, so a change that
lower case does not see keeps what is found under a name, what is repeated and what is taken.
-/

namespace SqlScript
open SqlScript.Text

def Column.respelled (φ : String → String) (c : Column) : Column := { c with name := φ c.name }

def Table.respelled (φ : String → String) (t : Table) : Table :=
  ⟨φ t.name, t.columns.map (Column.respelled φ)⟩

def Catalog.respelled (φ : String → String) (c : Catalog) : Catalog :=
  ⟨c.entries.map (Prod.map id (Table.respelled φ))⟩

theorem Table.respelled_id (t : Table) : t.respelled id = t := by
  have hcolumn : Column.respelled id = id := rfl
  rw [respelled, hcolumn, List.map_id]
  rfl

theorem Catalog.respelled_id (c : Catalog) : c.respelled id = c := by
  have htable : Table.respelled id = id := funext Table.respelled_id
  rw [respelled, htable, Prod.map_id, List.map_id]

variable {φ : String → String}

theorem Catalog.respelled_respelled (h : ∀ s, φ (φ s) = φ s) (c : Catalog) :
    (c.respelled φ).respelled φ = c.respelled φ := by
  have hcolumn : Column.respelled φ ∘ Column.respelled φ = Column.respelled φ := by
    funext column
    simp [Column.respelled, h]
  have htable (t : Table) : (t.respelled φ).respelled φ = t.respelled φ := by
    simp [Table.respelled, h, hcolumn]
  simp [respelled, htable]

variable (hφ : CaseBlind φ)
include hφ

namespace Table

theorem column?_respelled (t : Table) (name : String) :
    (t.respelled φ).column? (φ name) = (t.column? name).map (Column.respelled φ) := by
  rw [column?, respelled, List.find?_map, column?]
  simp only [Function.comp_def, Column.respelled, hφ.lower_eq]

theorem hasColumn_respelled (t : Table) (name : String) :
    (t.respelled φ).hasColumn (φ name) = t.hasColumn name := by
  rw [hasColumn, column?_respelled hφ, Option.isSome_map, hasColumn]

theorem repeatedFrom_respelled (seen : List String) (cs : List Column) :
    repeatedFrom seen (cs.map (Column.respelled φ)) =
      (repeatedFrom seen cs).map (Column.respelled φ) := by
  induction cs generalizing seen with
  | nil => rfl
  | cons c cs ih =>
    have hname : lower (c.respelled φ).name = lower c.name := hφ.lower_eq c.name
    rw [List.map_cons, repeatedFrom, repeatedFrom, hname, ih]
    split <;> rfl

end Table

namespace Catalog

theorem table?_respelled (c : Catalog) (name : String) :
    (c.respelled φ).table? (φ name) = (c.table? name).map (Table.respelled φ) := by
  obtain ⟨entries⟩ := c
  rw [table?, hφ.lower_eq, respelled, table?]
  induction entries with
  | nil => rfl
  | cons entry entries ih =>
    rw [List.map_cons, Prod.map, id, List.lookup_cons, List.lookup_cons, ih]
    cases lower name == entry.1 <;> rfl

theorem hasTable_respelled (c : Catalog) (name : String) :
    (c.respelled φ).hasTable (φ name) = c.hasTable name := by
  rw [hasTable, table?_respelled hφ, Option.isSome_map, hasTable]

theorem insert_respelled (c : Catalog) (t : Table) :
    (c.respelled φ).insert (t.respelled φ) = (c.insert t).respelled φ := by
  have hname : (c.respelled φ).hasTable (t.respelled φ).name = c.hasTable t.name :=
    hasTable_respelled hφ c t.name
  have hrepeated : (t.respelled φ).repeatedColumn? =
      t.repeatedColumn?.map (Column.respelled φ) :=
    Table.repeatedFrom_respelled hφ [] t.columns
  rw [insert, insert, add, add, hname, hrepeated]
  cases c.hasTable t.name with
  | true => rfl
  | false =>
    cases t.repeatedColumn? with
    | some column => rfl
    | none => simp [respelled, Table.respelled, hφ.lower_eq]

end Catalog

end SqlScript
