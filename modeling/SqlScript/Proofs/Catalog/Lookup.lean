import SqlScript.Catalog.Basic

/-!
Looking up by name. Where no two names of a list are the same in lower case, what is found under a
name is what has it; and a catalog is the list of its tables.
-/

namespace SqlScript
open SqlScript.Text

/-- What is found under a key is what has it, if no two have the same. -/
theorem find?_key_eq_some_iff {α : Type} {key : α → String} {l : List α}
    (h : l.Pairwise fun a b => key a ≠ key b) {k : String} {a : α} :
    l.find? (fun b => key b == k) = some a ↔ a ∈ l ∧ key a = k := by
  constructor
  · intro hfind
    have hkey := List.find?_some (p := fun b => key b == k) hfind
    exact ⟨List.mem_of_find?_eq_some hfind, by simpa using hkey⟩
  · rintro ⟨hmem, rfl⟩
    induction h with
    | nil => cases hmem
    | @cons b l hb _ ih =>
      rcases List.mem_cons.1 hmem with rfl | hmem
      · simp
      · rw [List.find?_cons_of_neg (by simpa using hb a hmem)]
        exact ih hmem

theorem find?_key_eq_none_iff {α : Type} {key : α → String} {l : List α} {k : String} :
    l.find? (fun b => key b == k) = none ↔ ∀ a ∈ l, key a ≠ k := by
  simp

/-! ## Columns -/

namespace Table

variable {t : Table} {name : String} {c : Column}

theorem column?_eq_some_iff (h : t.columns.Pairwise fun c d => lower c.name ≠ lower d.name) :
    t.column? name = some c ↔ c ∈ t.columns ∧ lower c.name = lower name :=
  find?_key_eq_some_iff h

theorem repeatedFrom_eq_none {seen : List String} {cs : List Column}
    (h : cs.Pairwise fun c d => lower c.name ≠ lower d.name)
    (hseen : ∀ c ∈ cs, lower c.name ∉ seen) : repeatedFrom seen cs = none := by
  induction h generalizing seen with
  | nil => rfl
  | @cons c cs hc _ ih =>
    rw [repeatedFrom, if_neg (by simpa using hseen c (List.mem_cons_self ..))]
    apply ih
    intro d hd hmem
    rcases List.mem_cons.1 hmem with heq | hmem
    · exact hc d hd heq.symm
    · exact hseen d (List.mem_cons_of_mem _ hd) hmem

theorem repeatedColumn?_eq_none (h : t.columns.Pairwise fun c d => lower c.name ≠ lower d.name) :
    t.repeatedColumn? = none :=
  repeatedFrom_eq_none h (by simp)

end Table

/-! ## Tables -/

namespace Catalog

/-- The catalog of some tables, in their order. -/
def ofTables (ts : List Table) : Catalog := ⟨ts.map fun t => (lower t.name, t)⟩

theorem table?_ofTables (ts : List Table) (name : String) :
    (ofTables ts).table? name = ts.find? fun t => lower t.name == lower name := by
  unfold table? ofTables
  induction ts with
  | nil => rfl
  | cons t ts ih =>
    rw [List.map_cons, List.lookup_cons, List.find?_cons, ih]
    cases h : lower name == lower t.name with
    | true => rw [BEq.comm, h]
    | false => rw [BEq.comm, h]

theorem hasTable_ofTables_eq_false_iff {ts : List Table} {name : String} :
    (ofTables ts).hasTable name = false ↔ ∀ t ∈ ts, lower t.name ≠ lower name := by
  rw [hasTable, table?_ofTables, Option.isSome_eq_false_iff, Option.isNone_iff_eq_none]
  exact find?_key_eq_none_iff

theorem insert_ofTables {ts : List Table} {t : Table}
    (hname : ∀ u ∈ ts, lower u.name ≠ lower t.name)
    (hcolumns : t.columns.Pairwise fun c d => lower c.name ≠ lower d.name) :
    (ofTables ts).insert t = ofTables (ts ++ [t]) := by
  have hnew := hasTable_ofTables_eq_false_iff.2 hname
  rw [insert, add, hnew, Table.repeatedColumn?_eq_none hcolumns]
  simp [ofTables]

end Catalog

end SqlScript
