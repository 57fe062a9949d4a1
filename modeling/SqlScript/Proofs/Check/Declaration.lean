import Mathlib.Data.List.Forall2
import SqlScript.Proofs.Check.Passes
import SqlScript.Proofs.Catalog.Lookup
import SqlScript.Proofs.Check.WellTyped
import SqlScript.Proofs.Text.Casing
import SqlScript.Proofs.Tree.Children

/-!
The check of CREATE statements: nothing is reported exactly if the declared tables are well formed
and have names of their own, and then the catalog lists them in order.
-/

namespace SqlScript.Check
open SqlScript.Text SqlScript.Grammar SqlScript.Phrase

/-! ## Columns -/

theorem isColumnType_upper_iff (name : String) :
    DataType.isColumnType (upper name) = true ↔ upper name ∈ DataType.columnTypes := by
  rw [DataType.isColumnType, upper_upper]
  exact List.contains_iff_mem

theorem find?_name (d : FieldDefinition) :
    d.tree.find? .identifier = some (0, Tree.leaf .identifier d.name.1) := rfl

theorem find?_type (d : FieldDefinition) :
    d.tree.find? .type = some (1, Tree.leaf .type d.type.1) := rfl

section

variable {table : String} {seen : List String} {i : Nat} {d : FieldDefinition}
  {more : List (Nat × Tree)}

theorem fields_of_invalid (h : d.column.dataType ∉ DataType.columnTypes) :
    (fields table seen ((i, d.tree) :: more)).findings.diagnostics ≠ [] := by
  have htype : DataType.isColumnType (upper (Tree.leaf .type d.type.1).text) = false := by
    rw [Bool.eq_false_iff, Ne, isColumnType_upper_iff]
    exact h
  simp only [fields, find?_name, find?_type, htype]
  simp [Findings.report]

theorem fields_of_seen (ht : d.column.dataType ∈ DataType.columnTypes)
    (h : lower d.column.name ∈ seen) :
    (fields table seen ((i, d.tree) :: more)).findings.diagnostics ≠ [] := by
  have htype : DataType.isColumnType (upper (Tree.leaf .type d.type.1).text) = true :=
    (isColumnType_upper_iff _).2 ht
  have hseen : seen.contains (lower (Tree.leaf .identifier d.name.1).text) = true :=
    List.contains_iff_mem.2 h
  simp only [fields, find?_name, find?_type, htype, hseen]
  simp [Findings.report]

theorem fields_of_valid (table : String) (i : Nat) (more : List (Nat × Tree))
    (ht : d.column.dataType ∈ DataType.columnTypes) (h : lower d.column.name ∉ seen) :
    (fields table seen ((i, d.tree) :: more)).findings.diagnostics =
        (fields table (lower d.column.name :: seen) more).findings.diagnostics ∧
      (fields table seen ((i, d.tree) :: more)).columns =
        d.column :: (fields table (lower d.column.name :: seen) more).columns := by
  have htype : DataType.isColumnType (upper (Tree.leaf .type d.type.1).text) = true :=
    (isColumnType_upper_iff _).2 ht
  have hseen : seen.contains (lower (Tree.leaf .identifier d.name.1).text) = false := by
    rw [Bool.eq_false_iff, Ne, List.contains_iff_mem]
    exact h
  simp only [fields, find?_name, find?_type, htype, hseen]
  exact ⟨rfl, rfl⟩

end

/-- The columns of some definitions are sound if none is reported. -/
theorem fields_sound {table : String} {seen : List String} {ls : List (Nat × Tree)}
    {ds : List FieldDefinition} (hls : ls.map (·.2) = ds.map FieldDefinition.tree)
    (h : (fields table seen ls).findings.diagnostics = []) :
    (∀ d ∈ ds, d.column.dataType ∈ DataType.columnTypes) ∧
      (ds.map FieldDefinition.column).Pairwise (fun c d => lower c.name ≠ lower d.name) ∧
      ∀ d ∈ ds, lower d.column.name ∉ seen := by
  induction ds generalizing ls seen with
  | nil => simp
  | cons d ds ih =>
    obtain ⟨⟨i, t⟩, more, rfl, rfl, hmore⟩ := List.map_eq_cons_iff.1 hls
    have ht : d.column.dataType ∈ DataType.columnTypes := by
      by_contra hinvalid
      exact fields_of_invalid hinvalid h
    have hnew : lower d.column.name ∉ seen := by
      intro hseen
      exact fields_of_seen ht hseen h
    rw [(fields_of_valid table i more ht hnew).1] at h
    obtain ⟨hvalid, hdistinct, hrest⟩ := ih hmore h
    refine ⟨List.forall_mem_cons.2 ⟨ht, hvalid⟩, ?_, List.forall_mem_cons.2 ⟨hnew, ?_⟩⟩
    · refine List.Pairwise.cons ?_ hdistinct
      intro c hc heq
      obtain ⟨e, he, rfl⟩ := List.mem_map.1 hc
      exact hrest e he (heq ▸ List.mem_cons_self ..)
    · intro e he hmem
      exact hrest e he (List.mem_cons_of_mem _ hmem)

theorem fields_complete (table : String) {seen : List String} {ls : List (Nat × Tree)}
    {ds : List FieldDefinition} (hls : ls.map (·.2) = ds.map FieldDefinition.tree)
    (hvalid : ∀ d ∈ ds, d.column.dataType ∈ DataType.columnTypes)
    (hdistinct : (ds.map FieldDefinition.column).Pairwise fun c d => lower c.name ≠ lower d.name)
    (hseen : ∀ d ∈ ds, lower d.column.name ∉ seen) :
    (fields table seen ls).findings.diagnostics = [] ∧
      (fields table seen ls).columns = ds.map FieldDefinition.column := by
  induction ds generalizing ls seen with
  | nil =>
    rw [List.map_nil, List.map_eq_nil_iff] at hls
    subst hls
    exact ⟨rfl, rfl⟩
  | cons d ds ih =>
    obtain ⟨⟨i, t⟩, more, rfl, rfl, hmore⟩ := List.map_eq_cons_iff.1 hls
    rw [List.map_cons, List.pairwise_cons] at hdistinct
    obtain ⟨hfirst, hdistinct⟩ := hdistinct
    obtain ⟨hreports, hcolumns⟩ := fields_of_valid table i more
      (hvalid d (List.mem_cons_self ..)) (hseen d (List.mem_cons_self ..))
    have hrest : ∀ e ∈ ds, lower e.column.name ∉ lower d.column.name :: seen := by
      intro e he hmem
      rcases List.mem_cons.1 hmem with heq | hmem
      · exact hfirst e.column (List.mem_map_of_mem he) heq.symm
      · exact hseen e (List.mem_cons_of_mem _ he) hmem
    obtain ⟨hnone, hlater⟩ :=
      ih hmore (fun e he => hvalid e (List.mem_cons_of_mem _ he)) hdistinct hrest
    rw [hreports, hcolumns, hnone, hlater]
    exact ⟨rfl, rfl⟩

/-! ## Tables -/

/-- The columns that are kept of a list of definitions. -/
def fieldsOf (name : Name) (ds : Listed FieldDefinition) : Fields :=
  fields name.1.lexeme [] <|
    (node .fieldList (ds.tokens FieldDefinition.tokens)
      (ds.trees FieldDefinition.tree)).findAll .fieldDefinition

theorem findAll_fieldDefinition (ds : Listed FieldDefinition) :
    ((node .fieldList (ds.tokens FieldDefinition.tokens)
      (ds.trees FieldDefinition.tree)).findAll .fieldDefinition).map (·.2) =
      ds.items.map FieldDefinition.tree := by
  rw [Tree.map_snd_findAll]
  exact ds.filter_trees (fun _ => rfl) fun _ => rfl

section

variable (lead : Keyword Statement.create.word) (word : Keyword "TABLE") (name : Name)
  (opening : Phrase.Mark "(") (ds : Listed FieldDefinition) (closing : Phrase.Mark ")")
  (finish : Phrase.Mark ";") (catalog : Catalog)

theorem create_tree :
    create catalog
        (Sentence.tree ⟨.create, lead, .create word name opening ds closing, finish⟩) =
      if catalog.hasTable name.1.lexeme then
        (catalog, Findings.under 2 (.mark DataType.table (some name.1.lexeme)) ++
          .report name.1.place ("Table '" ++ name.1.lexeme ++ "' already exists"))
      else
        (if (fieldsOf name ds).columns.isEmpty then catalog
          else catalog.insert ⟨name.1.lexeme, (fieldsOf name ds).columns⟩,
          Findings.under 2 (.mark DataType.table (some name.1.lexeme)) ++
            (fieldsOf name ds).findings.under 4) := rfl

end

/-- The tree of a CREATE statement, and the table that it declares. -/
def Creates (t : Tree) (table : Table) : Prop := ∃ s : Sentence, s.tree = t ∧ s.table? = some table

theorem create_sound {t : Tree} {table : Table} (ht : Creates t table) {tables : List Table}
    (h : (create (.ofTables tables) t).2.diagnostics = []) :
    (∀ u ∈ tables, lower u.name ≠ lower table.name) ∧ WellFormed table := by
  obtain ⟨⟨st, lead, body, finish⟩, rfl, htable⟩ := ht
  cases body with
  | create word name opening ds closing =>
    cases htable
    rw [create_tree] at h
    split at h
    · simp at h
    · rename_i hnew
      have hnone : (fieldsOf name ds).findings.diagnostics = [] := by simpa using h
      unfold fieldsOf at hnone
      obtain ⟨hvalid, hdistinct, -⟩ := fields_sound (findAll_fieldDefinition ds) hnone
      rw [Bool.not_eq_true, Catalog.hasTable_ofTables_eq_false_iff] at hnew
      refine ⟨hnew, ?_, hdistinct⟩
      intro c hc
      obtain ⟨d, hd, rfl⟩ := List.mem_map.1 hc
      exact hvalid d hd
  | _ => cases htable

theorem create_complete {t : Tree} {table : Table} (ht : Creates t table) {tables : List Table}
    (hnew : ∀ u ∈ tables, lower u.name ≠ lower table.name) (hw : WellFormed table) :
    (create (.ofTables tables) t).2.diagnostics = [] ∧
      (create (.ofTables tables) t).1 = .ofTables (tables ++ [table]) := by
  obtain ⟨⟨st, lead, body, finish⟩, rfl, htable⟩ := ht
  cases body with
  | create word name opening ds closing =>
    cases htable
    have hvalid : ∀ d ∈ ds.items, d.column.dataType ∈ DataType.columnTypes := fun d hd =>
      hw.types_valid _ (List.mem_map_of_mem hd)
    obtain ⟨hnone, hcolumns⟩ : (fieldsOf name ds).findings.diagnostics = [] ∧
        (fieldsOf name ds).columns = ds.items.map FieldDefinition.column := by
      unfold fieldsOf
      exact fields_complete name.1.lexeme (findAll_fieldDefinition ds) hvalid hw.names_distinct
        fun _ _ => List.not_mem_nil
    have hhas := Catalog.hasTable_ofTables_eq_false_iff.2 hnew
    have hkept : (ds.items.map FieldDefinition.column).isEmpty = false := rfl
    rw [create_tree, hhas, hcolumns, hkept]
    simp only [Bool.false_eq_true, if_false]
    refine ⟨?_, ?_⟩
    · simpa using hnone
    · exact Catalog.insert_ofTables hnew hw.names_distinct
  | _ => cases htable

/-! ## Catalogs -/

theorem register_sound {ls : List (Tree.Path × Tree)} {ts tables : List Table}
    (hls : List.Forall₂ (fun x t => Creates x.2 t) ls ts)
    (htables : tables.Pairwise fun t u => lower t.name ≠ lower u.name)
    (h : (register (.ofTables tables) ls).2.diagnostics = []) :
    (tables ++ ts).Pairwise (fun t u => lower t.name ≠ lower u.name) ∧
      ∀ t ∈ ts, WellFormed t := by
  induction hls generalizing tables with
  | nil => simpa using htables
  | @cons x t ls ts hx _ ih =>
    obtain ⟨path, node⟩ := x
    rw [register_cons, Findings.diagnostics_append, Findings.diagnostics_below,
      List.append_eq_nil_iff] at h
    obtain ⟨hnew, hw⟩ := create_sound hx h.1
    rw [(create_complete hx hnew hw).2] at h
    have htables' : (tables ++ [t]).Pairwise fun t u => lower t.name ≠ lower u.name :=
      List.pairwise_append.2 ⟨htables, List.pairwise_singleton _ _, by simpa using hnew⟩
    obtain ⟨hdistinct, hwell⟩ := ih htables' h.2
    rw [List.append_assoc, List.singleton_append] at hdistinct
    exact ⟨hdistinct, List.forall_mem_cons.2 ⟨hw, hwell⟩⟩

theorem register_complete {ls : List (Tree.Path × Tree)} {ts : List Table} (tables : List Table)
    (hls : List.Forall₂ (fun x t => Creates x.2 t) ls ts)
    (hdistinct : (tables ++ ts).Pairwise fun t u => lower t.name ≠ lower u.name)
    (hw : ∀ t ∈ ts, WellFormed t) :
    (register (.ofTables tables) ls).2.diagnostics = [] ∧
      (register (.ofTables tables) ls).1 = .ofTables (tables ++ ts) := by
  induction hls generalizing tables with
  | nil => exact ⟨rfl, by rw [List.append_nil, register]⟩
  | @cons x t ls ts hx _ ih =>
    obtain ⟨path, node⟩ := x
    have hnew : ∀ u ∈ tables, lower u.name ≠ lower t.name := fun u hu =>
      (List.pairwise_append.1 hdistinct).2.2 u hu t (List.mem_cons_self ..)
    obtain ⟨hnone, hcatalog⟩ := create_complete hx hnew (hw t (List.mem_cons_self ..))
    rw [List.append_cons] at hdistinct ⊢
    obtain ⟨hlater, hall⟩ := ih _ hdistinct fun u hu => hw u (List.mem_cons_of_mem _ hu)
    rw [register_cons, hcatalog, Findings.diagnostics_append, Findings.diagnostics_below, hnone,
      hlater]
    exact ⟨rfl, hall⟩

end SqlScript.Check
