import SqlScript.Check.Script
import SqlScript.Proofs.Check.Expression
import SqlScript.Proofs.Check.Walk

/-!
The check of the other statements: nothing is reported exactly if the statement is typed over the
table that it names.
-/

namespace SqlScript.Check
open SqlScript.Text SqlScript.Grammar SqlScript.Phrase

variable {table : Table}

/-! ## Names of columns -/

/-- What is reported about the names in a clause. -/
theorem diagnostics_columnNames (table : Table) (kind : Tree.Kind) (t : Tree) :
    (columnNames table kind t).diagnostics =
      (t.children.find? (·.kind == kind)).toList.flatMap fun list =>
        (list.children.filter (·.kind == .identifier)).flatMap fun name =>
          (columnTyping table name.label).findings.diagnostics := by
  rw [← Tree.map_snd_find?, columnNames]
  cases t.find? kind with
  | none => rfl
  | some il =>
    obtain ⟨i, list⟩ := il
    simp only [Option.map_some, Option.toList_some, List.flatMap_singleton,
      ← Tree.map_snd_findAll, List.flatMap_map, Findings.diagnostics_under,
      Findings.diagnostics_join]

theorem columns_iff (hw : WellFormed table) (columns : Columns) {t : Tree}
    (ht : t.children.find? (·.kind == .selectList) = some columns.tree) :
    (columnNames table .selectList t).diagnostics = [] ↔ columns.Typed table := by
  rw [diagnostics_columnNames, ht, Option.toList_some, List.flatMap_singleton]
  cases columns with
  | all star => exact ⟨fun _ => trivial, fun _ => rfl⟩
  | only names =>
    have hchildren : (Columns.only names).tree.children =
        names.trees fun t : Name => Tree.leaf .identifier t.1 := rfl
    rw [hchildren, Listed.filter_trees (fun _ => rfl) fun _ => rfl, List.flatMap_map,
      List.flatMap_eq_nil_iff, Columns.Typed]
    simp only [columnTyping_iff hw]

theorem order_iff (hw : WellFormed table) (order : Option OrderClause) {t : Tree}
    (ht : t.children.find? (·.kind == .orderClause) = order.map OrderClause.tree) :
    (columnNames table .orderClause t).diagnostics = [] ↔ ∀ o ∈ order, o.Typed table := by
  rw [diagnostics_columnNames, ht]
  cases order with
  | none => simp
  | some o =>
    have hcolumn : o.tree.children.filter (·.kind == .identifier) =
        [Tree.leaf .identifier o.column.1] := by
      obtain ⟨lead, by_, column, direction⟩ := o
      cases direction <;> rfl
    rw [Option.map_some, Option.toList_some, List.flatMap_singleton, hcolumn,
      List.flatMap_singleton, columnTyping_iff hw]
    simp [OrderClause.Typed]

/-! ## Conditions -/

theorem diagnostics_whereFindings (table : Table) (t : Tree) :
    (whereFindings table t).diagnostics =
      (t.children.find? (·.kind == .whereClause)).toList.flatMap fun clause =>
        (clause.children.drop 1).flatMap (reports table) := by
  rw [← Tree.map_snd_find?, whereFindings]
  cases t.find? .whereClause with
  | none => rfl
  | some ic =>
    obtain ⟨i, clause⟩ := ic
    conv => rhs; simp only [Option.map_some, Option.toList_some, List.flatMap_singleton]
    conv => rhs; rw [← List.zipIdx_map_fst 0 clause.children, ← List.map_drop, List.flatMap_map]
    simp only [infer_eq_expression, Findings.diagnostics_under, Findings.diagnostics_join,
      List.flatMap_map]
    rfl

theorem where_iff (hw : WellFormed table) (filter : Option WhereClause) {t : Tree}
    (ht : t.children.find? (·.kind == .whereClause) = filter.map WhereClause.tree) :
    (whereFindings table t).diagnostics = [] ↔ ∀ w ∈ filter, w.Typed table := by
  rw [diagnostics_whereFindings, ht]
  cases filter with
  | none => simp
  | some w =>
    have hcondition : w.tree.children.drop 1 = [w.condition.tree] := rfl
    rw [Option.map_some, Option.toList_some, List.flatMap_singleton, hcondition,
      List.flatMap_singleton, exists_hasType_iff hw]
    simp [WhereClause.Typed]

/-! ## Values -/

theorem columnType_mem (hw : WellFormed table) {c : Column} (h : c ∈ table.columns) :
    c.dataType ∈ valueTypes :=
  List.mem_cons_of_mem _ (hw.types_valid c h)

/-- A value goes with a type if nothing is reported about it and its type does. -/
theorem accepts_iff (hw : WellFormed table) {r : Rank} (e : Expression r) {type : String}
    (ht : type ∈ valueTypes) :
    reports table e.tree = [] ∧ DataType.compatible type (typeOf table e.tree) = true ↔
      ∃ b, e.HasType table b ∧ Compatible type b := by
  constructor
  · rintro ⟨hnone, hc⟩
    have htyped := (hasType_iff hw e _).1 ⟨hnone, rfl⟩
    exact ⟨_, htyped, (compatible_iff ht (hasType_valueTypes hw htyped)).1 hc⟩
  · rintro ⟨b, htyped, hc⟩
    obtain ⟨hnone, rfl⟩ := (hasType_iff hw e b).2 htyped
    exact ⟨hnone, (compatible_iff ht (hasType_valueTypes hw htyped)).2 hc⟩

theorem diagnostics_ite_none (p : Prop) [Decidable p] (place : Place) (message : String) :
    (if p then Findings.none else .report place message).diagnostics = [] ↔ p := by
  by_cases h : p <;> simp [h]

theorem value_iff (hw : WellFormed table) (e : Expression .term) {c : Column}
    (hc : c ∈ table.columns) :
    (valueFindings table e.tree c).diagnostics = [] ↔ Inserts table e c := by
  rw [valueFindings, infer_eq_expression, Inserts]
  by_cases hname : e.tree.kind = .identifier
  · simp [hname, (kind_tree_eq_identifier_iff e).1 hname]
  · have hbare : e.isName = false := by
      rw [Bool.eq_false_iff, Ne, ← kind_tree_eq_identifier_iff]
      exact hname
    rw [if_neg hname, Findings.diagnostics_append, List.append_eq_nil_iff, diagnostics_ite_none,
      ← accepts_iff hw e (columnType_mem hw hc)]
    simp only [hbare, true_and]
    rfl

/-! ## INSERT -/

theorem map_fst_insertedValues (list : Tree) :
    (insertedValues list).map (·.1) = list.children.filter (·.kind ≠ .delimiter) := by
  conv => rhs; rw [← List.zipIdx_map_fst 0 list.children, List.filter_map]
  rfl

theorem forall_zip_map_left {α β γ : Type} (p : β → γ → Prop) {f : α → β} {as : List α}
    {cs : List γ} :
    (∀ x ∈ (as.map f).zip cs, p x.1 x.2) ↔ ∀ x ∈ as.zip cs, p (f x.1) x.2 := by
  rw [List.zip_map_left, List.forall_mem_map]
  rfl

theorem insert_iff (hw : WellFormed table) (values : Listed (Expression .term)) (name : Tree)
    {t : Tree} (ht : t.children.find? (·.kind == .valueList) =
      some (node .valueList (values.tokens Expression.tokens) (values.trees Expression.tree))) :
    (insert table name t).diagnostics = [] ↔
      List.Forall₂ (Inserts table) values.items table.columns := by
  obtain ⟨i, hfind⟩ := Tree.exists_find?_eq ht
  generalize hlist : node .valueList (values.tokens Expression.tokens)
    (values.trees Expression.tree) = list at hfind
  have hvalues : (insertedValues list).map (·.1) = values.items.map Expression.tree := by
    rw [map_fst_insertedValues, ← hlist]
    exact values.filter_trees (fun e => by simpa using kind_tree_ne_delimiter e) fun _ => rfl
  have hlength : (insertedValues list).length = values.items.length := by
    simpa using congrArg List.length hvalues
  rw [insert, hfind, List.forall₂_iff_zip]
  simp only [hlength]
  by_cases hl : values.items.length = table.columns.length
  · rw [if_neg (not_not.2 hl), Findings.diagnostics_under, Findings.diagnostics_join,
      List.flatMap_map, List.flatMap_eq_nil_iff]
    let sound (t : Tree) (c : Column) : Prop := (valueFindings table t c).diagnostics = []
    calc (∀ x ∈ (insertedValues list).zip table.columns,
          ((valueFindings table x.1.1 x.2).under x.1.2).diagnostics = [])
      _ ↔ ∀ x ∈ ((insertedValues list).map (·.1)).zip table.columns,
          (valueFindings table x.1 x.2).diagnostics = [] :=
        (forall_zip_map_left sound).symm
      _ ↔ ∀ x ∈ values.items.zip table.columns,
          (valueFindings table x.1.tree x.2).diagnostics = [] := by
        rw [hvalues]
        exact forall_zip_map_left sound
      _ ↔ values.items.length = table.columns.length ∧
          ∀ {e c}, (e, c) ∈ values.items.zip table.columns → Inserts table e c := by
        constructor
        · intro h
          refine ⟨hl, ?_⟩
          intro e c hmem
          exact (value_iff hw e (List.of_mem_zip hmem).2).1 (h _ hmem)
        · rintro ⟨-, h⟩ ⟨e, c⟩ hmem
          exact (value_iff hw e (List.of_mem_zip hmem).2).2 (h hmem)
  · rw [if_pos hl]
    simp [hl]

/-! ## UPDATE -/

theorem assignment_iff (hw : WellFormed table) (a : Assignment) :
    (assignmentFindings table a.tree).diagnostics = [] ↔ a.Typed table := by
  have hcount : a.tree.children.length = 3 := rfl
  have hhead : a.tree.children.head? = some (Tree.leaf .identifier a.target.1) := rfl
  have hlast : a.tree.children.getLast? = some a.value.tree := rfl
  have hkind : ¬(Tree.leaf .identifier a.target.1).kind ≠ .identifier := fun h => h rfl
  rw [assignmentFindings, hhead, hlast, hcount]
  simp only [infer_eq_expression]
  rw [if_neg hkind]
  by_cases hnames : ∃ c, Names table a.target c
  · obtain ⟨c, hc⟩ := hnames
    obtain ⟨hnone, htype⟩ := columnTyping_of_names hw hc
    have hcolumn := (Table.column?_eq_some_iff hw.names_distinct).2 hc
    have hhas : table.hasColumn (Tree.leaf .identifier a.target.1).text = true := by
      rw [Table.hasColumn, Tree.text_leaf, hcolumn, Option.isSome_some]
    rw [if_neg (by simpa using hhas), Findings.diagnostics_append, Findings.diagnostics_append,
      Findings.diagnostics_under, Findings.diagnostics_under, hnone, htype, List.nil_append,
      List.append_eq_nil_iff, diagnostics_ite_none]
    refine (accepts_iff hw a.value (columnType_mem hw hc.1)).trans ?_
    constructor
    · rintro ⟨b, hb, hcompatible⟩
      exact ⟨c, b, hc, hb, hcompatible⟩
    · rintro ⟨d, b, hd, hb, hcompatible⟩
      have hsame := hcolumn.symm.trans ((Table.column?_eq_some_iff hw.names_distinct).2 hd)
      cases hsame
      exact ⟨b, hb, hcompatible⟩
  · have hhas : table.hasColumn (Tree.leaf .identifier a.target.1).text = false := by
      rw [Table.hasColumn, Option.isSome_eq_false_iff, Option.isNone_iff_eq_none]
      by_contra hsome
      obtain ⟨c, hc⟩ := Option.ne_none_iff_exists'.1 hsome
      exact hnames ⟨c, (Table.column?_eq_some_iff hw.names_distinct).1 hc⟩
    rw [if_pos (by simpa using hhas), Findings.diagnostics_under, columnTyping_iff hw]
    constructor
    · intro h
      exact absurd h hnames
    · rintro ⟨c, -, hc, -⟩
      exact ⟨c, hc⟩

theorem update_iff (hw : WellFormed table) (assignments : Listed Assignment)
    (filter : Option WhereClause) {t : Tree}
    (ha : t.children.find? (·.kind == .assignmentList) =
      some (node .assignmentList (assignments.tokens Assignment.tokens)
        (assignments.trees Assignment.tree)))
    (hf : t.children.find? (·.kind == .whereClause) = filter.map WhereClause.tree) :
    (update table t).diagnostics = [] ↔
      (∀ a ∈ assignments.items, a.Typed table) ∧ ∀ w ∈ filter, w.Typed table := by
  obtain ⟨i, hfind⟩ := Tree.exists_find?_eq ha
  generalize hlist : node .assignmentList (assignments.tokens Assignment.tokens)
    (assignments.trees Assignment.tree) = list at hfind
  have hassignments : (list.findAll .assignment).map (·.2) =
      assignments.items.map Assignment.tree := by
    rw [Tree.map_snd_findAll, ← hlist]
    exact assignments.filter_trees (fun _ => rfl) fun _ => rfl
  have hall : (list.findAll .assignment).flatMap
      (fun x => (assignmentFindings table x.2).diagnostics) =
      assignments.items.flatMap fun a => (assignmentFindings table a.tree).diagnostics := by
    have h := congrArg (·.flatMap fun t => (assignmentFindings table t).diagnostics) hassignments
    simpa only [List.flatMap_map] using h
  rw [update, hfind, Findings.diagnostics_append, List.append_eq_nil_iff, where_iff hw filter hf]
  simp only [Findings.diagnostics_under, Findings.diagnostics_join, List.flatMap_map, hall]
  rw [List.flatMap_eq_nil_iff]
  simp only [assignment_iff hw]

/-! ## Statements -/

/-- The check of a statement over its table. -/
def checkOver (table : Table) (s : Sentence) : Findings :=
  match s.statement with
  | .create => .none
  | .select => select table s.tree
  | .insert => insert table (Tree.leaf .identifier s.body.tableName.1) s.tree
  | .update => update table s.tree
  | .delete => delete table s.tree

theorem checkOver_iff (hw : WellFormed table) (s : Sentence) :
    (checkOver table s).diagnostics = [] ↔ s.body.TypedOver table := by
  obtain ⟨st, lead, body, finish⟩ := s
  cases body with
  | create => exact ⟨fun _ => trivial, fun _ => rfl⟩
  | select columns source name filter order =>
    rw [checkOver, select, Findings.diagnostics_append, Findings.diagnostics_append,
      List.append_eq_nil_iff, List.append_eq_nil_iff, columns_iff hw columns rfl,
      where_iff hw filter (by cases filter <;> cases order <;> rfl),
      order_iff hw order (by cases filter <;> cases order <;> rfl), and_assoc]
    rfl
  | insert into name word opening values closing => exact insert_iff hw values _ rfl
  | update name set assignments filter =>
    exact update_iff hw assignments filter rfl (by cases filter <;> rfl)
  | delete source name filter => exact where_iff hw filter (by cases filter <;> rfl)

section

variable {catalog : Catalog} {check : Table → Tree → Findings} {t name : Tree} {i : Nat}

theorem withTable_of_some (hname : t.find? .identifier = some (i, name))
    (htable : catalog.table? name.text = some table) :
    (withTable catalog t check).diagnostics = (check table name).diagnostics := by
  rw [withTable, hname]
  simp [htable]

theorem withTable_of_none (hname : t.find? .identifier = some (i, name))
    (htable : catalog.table? name.text = none) : (withTable catalog t check).diagnostics ≠ [] := by
  rw [withTable, hname]
  simp [htable]

end

/-- What is reported about a statement, if its table is there and if it is not. -/
theorem statement_tree {s : Sentence} (hs : s.statement ≠ .create) (catalog : Catalog) :
    (∀ table, catalog.table? s.body.tableName.1.lexeme = some table →
        (statement catalog s.tree).diagnostics = (checkOver table s).diagnostics) ∧
      (catalog.table? s.body.tableName.1.lexeme = none →
        (statement catalog s.tree).diagnostics ≠ []) := by
  obtain ⟨st, lead, body, finish⟩ := s
  cases body with
  | create => exact absurd rfl hs
  | select => exact ⟨fun _ h => withTable_of_some rfl h, fun h => withTable_of_none rfl h⟩
  | insert => exact ⟨fun _ h => withTable_of_some rfl h, fun h => withTable_of_none rfl h⟩
  | update => exact ⟨fun _ h => withTable_of_some rfl h, fun h => withTable_of_none rfl h⟩
  | delete => exact ⟨fun _ h => withTable_of_some rfl h, fun h => withTable_of_none rfl h⟩

theorem statement_iff {tables : List Table}
    (hdistinct : tables.Pairwise fun t u => lower t.name ≠ lower u.name)
    (hw : ∀ t ∈ tables, WellFormed t) {s : Sentence} (hs : s.statement ≠ .create) :
    (statement (.ofTables tables) s.tree).diagnostics = [] ↔ s.Typed tables := by
  obtain ⟨hfound, hmissing⟩ := statement_tree hs (.ofTables tables)
  have htable := Catalog.table?_ofTables tables s.body.tableName.1.lexeme
  constructor
  · intro h
    cases hf : (Catalog.ofTables tables).table? s.body.tableName.1.lexeme with
    | none => exact absurd h (hmissing hf)
    | some table =>
      rw [htable] at hf
      obtain ⟨hmem, hname⟩ := (find?_key_eq_some_iff hdistinct).1 hf
      rw [hfound table (htable.trans hf), checkOver_iff (hw table hmem)] at h
      exact .inr ⟨table, hmem, hname, h⟩
  · rintro (hcreate | ⟨table, hmem, hname, htyped⟩)
    · exact absurd hcreate hs
    · have hf := (find?_key_eq_some_iff hdistinct).2 ⟨hmem, hname⟩
      rw [hfound table (htable.trans hf), checkOver_iff (hw table hmem)]
      exact htyped

end SqlScript.Check
