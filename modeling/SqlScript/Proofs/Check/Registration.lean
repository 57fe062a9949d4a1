import SqlScript.Proofs.Catalog.History
import SqlScript.Proofs.Check.Declaration

/-!
The catalog of a tree of any shape: which of its CREATE statements are listed there and with which
columns, and what is reported of the others. A statement is judged by the tables that are listed
before it, and a field by the columns that are kept before it; what is refused leaves no trace in
either.
-/

namespace SqlScript
open SqlScript.Text

namespace Tree

def first? (t : Tree) (kind : Kind) : Option Tree := t.children.find? (·.kind == kind)

def every (t : Tree) (kind : Kind) : List Tree := t.children.filter (·.kind == kind)

theorem first?_eq_none {t : Tree} {kind : Kind} (h : t.find? kind = none) :
    t.first? kind = none := by
  rw [first?, ← map_snd_find?, h]
  rfl

theorem first?_eq_some {t c : Tree} {kind : Kind} {i : Nat} (h : t.find? kind = some (i, c)) :
    t.first? kind = some c := by
  rw [first?, ← map_snd_find?, h]
  rfl

end Tree

namespace Catalog

/-- The tables are handed to the catalog one after the other, and each of them is added. -/
inductive AddsAll : Catalog → List Table → Catalog → Prop where
  | nil {c : Catalog} : AddsAll c [] c
  | cons {c c' last : Catalog} {t : Table} {ts : List Table} (h : c.add t = .added c')
      (hs : AddsAll c' ts last) : AddsAll c (t :: ts) last

theorem AddsAll.append {c c' last : Catalog} {ts us : List Table} (h : AddsAll c ts c')
    (hs : AddsAll c' us last) : AddsAll c (ts ++ us) last := by
  induction h with
  | nil => exact hs
  | cons h _ ih => exact .cons h (ih hs)

theorem add_ofTables {ts : List Table} {t : Table}
    (hname : ∀ u ∈ ts, lower u.name ≠ lower t.name)
    (hcolumns : t.columns.Pairwise fun c d => lower c.name ≠ lower d.name) :
    (ofTables ts).add t = .added (ofTables (ts ++ [t])) := by
  rw [add, hasTable_ofTables_eq_false_iff.2 hname, Table.repeatedColumn?_eq_none hcolumns]
  simp [ofTables]

end Catalog

namespace Check
open SqlScript.Tree

/-! ## Judgements that build on each other -/

/-- Items are judged one after the other, each by what is known when its turn comes: what was known
at first, and all that the items before it have added. -/
inductive Accrues {α β : Type} (judge : List β → α → List β → List Diagnostic → Prop) :
    List β → List α → List β → List Diagnostic → Prop where
  | nil {known : List β} : Accrues judge known [] [] []
  | cons {known own later : List β} {a : α} {as : List α} {ds es : List Diagnostic}
      (h : judge known a own ds) (hs : Accrues judge (known ++ own) as later es) :
      Accrues judge known (a :: as) (own ++ later) (ds ++ es)

namespace Accrues

variable {α β : Type} {judge : List β → α → List β → List Diagnostic → Prop} {known later : List β}
  {a : α} {as : List α} {ds es : List Diagnostic}

theorem pass (h : judge known a [] ds) (hs : Accrues judge known as later es) :
    Accrues judge known (a :: as) later (ds ++ es) := by
  rw [← List.append_nil known] at hs
  exact cons h hs

theorem unique {bs bs' : List β} (h : Accrues judge known as bs ds)
    (h' : Accrues judge known as bs' es)
    (hjudge : ∀ known a own own' ds ds', judge known a own ds → judge known a own' ds' →
      own = own' ∧ ds = ds') : bs = bs' ∧ ds = es := by
  induction h generalizing bs' es with
  | nil =>
    cases h'
    exact ⟨rfl, rfl⟩
  | cons hown _ ih =>
    cases h' with
    | cons hown' hs' =>
      obtain ⟨rfl, rfl⟩ := hjudge _ _ _ _ _ _ hown hown'
      obtain ⟨rfl, rfl⟩ := ih hs'
      exact ⟨rfl, rfl⟩

end Accrues

/-! ## Fields -/

/-- What comes of one field of a table, after the columns that were kept before it. A field without
a name or a type is passed over. A field of another type than columns can have is reported and
dropped, whatever its name, and so is one whose name a column has that was kept. -/
inductive Retains (table : String) (kept : List Column) (field : Tree) :
    List Column → List Diagnostic → Prop where
  | passed (h : field.first? .identifier = none ∨ field.first? .type = none) :
      Retains table kept field [] []
  | invalid {name type : Tree} (hname : field.first? .identifier = some name)
      (htype : field.first? .type = some type) (h : upper type.text ∉ DataType.columnTypes) :
      Retains table kept field [] [⟨type.place, invalidType table type.text⟩]
  | repeated {name type : Tree} (hname : field.first? .identifier = some name)
      (htype : field.first? .type = some type) (hvalid : upper type.text ∈ DataType.columnTypes)
      (h : ∃ c ∈ kept, lower c.name = lower name.text) :
      Retains table kept field [] [⟨name.place, Table.repeatedMessage table name.text⟩]
  | retained {name type : Tree} (hname : field.first? .identifier = some name)
      (htype : field.first? .type = some type) (hvalid : upper type.text ∈ DataType.columnTypes)
      (h : ∀ c ∈ kept, lower c.name ≠ lower name.text) :
      Retains table kept field [⟨name.text, upper type.text⟩] []

theorem Retains.unique {table : String} {kept own own' : List Column} {field : Tree}
    {ds ds' : List Diagnostic} (h : Retains table kept field own ds)
    (h' : Retains table kept field own' ds') : own = own' ∧ ds = ds' := by
  cases h <;> cases h' <;> grind

theorem fields_accrue (table : String) {kept : List Column} {seen : List String}
    (hseen : ∀ s, s ∈ seen ↔ ∃ c ∈ kept, lower c.name = s) (ls : List (Nat × Tree)) :
    Accrues (Retains table) kept (ls.map (·.2)) (fields table seen ls).columns
      (fields table seen ls).findings.diagnostics := by
  induction ls generalizing kept seen with
  | nil => exact .nil
  | cons x more ih =>
    obtain ⟨i, field⟩ := x
    cases hname : field.find? .identifier with
    | none =>
      simp only [fields, hname]
      exact .pass (.passed (.inl (first?_eq_none hname))) (ih hseen)
    | some x =>
      obtain ⟨j, name⟩ := x
      cases htype : field.find? .type with
      | none =>
        simp only [fields, hname, htype]
        exact .pass (.passed (.inr (first?_eq_none htype))) (ih hseen)
      | some y =>
        obtain ⟨k, type⟩ := y
        have hname' := first?_eq_some hname
        have htype' := first?_eq_some htype
        simp only [fields, hname, htype]
        split
        · rename_i hinvalid
          rw [Bool.not_eq_true', Bool.eq_false_iff, Ne, isColumnType_upper_iff] at hinvalid
          exact .pass (.invalid hname' htype' hinvalid) (ih hseen)
        rename_i hvalid
        rw [Bool.not_eq_true', Bool.not_eq_false, isColumnType_upper_iff] at hvalid
        split
        · rename_i hold
          rw [List.contains_iff_mem, hseen] at hold
          exact .pass (.repeated hname' htype' hvalid hold) (ih hseen)
        · rename_i hnew
          rw [List.contains_iff_mem, hseen] at hnew
          -- the names seen and the columns kept grow by one and the same
          refine .cons (.retained hname' htype' hvalid (by simpa using hnew)) (ih fun s => ?_)
          simp [hseen, or_and_right, exists_or, or_comm, eq_comm (a := s)]

theorem distinct_of_accrues {table : String} {kept columns : List Column} {fs : List Tree}
    {ds : List Diagnostic} (h : Accrues (Retains table) kept fs columns ds)
    (hkept : kept.Pairwise fun c d => lower c.name ≠ lower d.name) :
    (kept ++ columns).Pairwise fun c d => lower c.name ≠ lower d.name := by
  induction h with
  | nil => rwa [List.append_nil]
  | cons hown _ ih =>
    rw [← List.append_assoc]
    apply ih
    cases hown with
    | passed | invalid | repeated => rwa [List.append_nil]
    | retained _ _ _ hnew =>
      exact List.pairwise_append.2 ⟨hkept, List.pairwise_singleton _ _, by simpa using hnew⟩

/-! ## Statements -/

/-- What comes of a CREATE statement, after the tables that are listed. A statement without a name,
with the name of a listed table or without a list of fields is reported and adds nothing. Of the
others the fields are judged, and where columns are kept, the table is listed with them. -/
inductive Lists (known : List Table) (t : Tree) : List Table → List Diagnostic → Prop where
  | unnamed (h : t.first? .identifier = none) :
      Lists known t [] [⟨t.place, "CREATE TABLE missing table name"⟩]
  | taken {name : Tree} (hname : t.first? .identifier = some name)
      (h : ∃ u ∈ known, lower u.name = lower name.text) :
      Lists known t [] [⟨name.place, "Table '" ++ name.text ++ "' already exists"⟩]
  | fieldless {name : Tree} (hname : t.first? .identifier = some name)
      (hnew : ∀ u ∈ known, lower u.name ≠ lower name.text) (h : t.first? .fieldList = none) :
      Lists known t [] [⟨name.place, "CREATE TABLE '" ++ name.text ++ "' missing field list"⟩]
  | columnless {name list : Tree} {ds : List Diagnostic}
      (hname : t.first? .identifier = some name)
      (hnew : ∀ u ∈ known, lower u.name ≠ lower name.text) (hlist : t.first? .fieldList = some list)
      (h : Accrues (Retains name.text) [] (list.every .fieldDefinition) [] ds) :
      Lists known t [] ds
  | listed {name list : Tree} {columns : List Column} {ds : List Diagnostic}
      (hname : t.first? .identifier = some name)
      (hnew : ∀ u ∈ known, lower u.name ≠ lower name.text) (hlist : t.first? .fieldList = some list)
      (h : Accrues (Retains name.text) [] (list.every .fieldDefinition) columns ds)
      (hcolumns : columns ≠ []) : Lists known t [⟨name.text, columns⟩] ds

theorem Lists.unique {known own own' : List Table} {t : Tree} {ds ds' : List Diagnostic}
    (h : Lists known t own ds) (h' : Lists known t own' ds') : own = own' ∧ ds = ds' := by
  have hfields {table : String} {fs : List Tree} {columns columns' : List Column}
      {ds ds' : List Diagnostic} (h : Accrues (Retains table) [] fs columns ds)
      (h' : Accrues (Retains table) [] fs columns' ds') : columns = columns' ∧ ds = ds' :=
    h.unique h' fun _ _ _ _ _ _ => Retains.unique
  cases h <;> cases h' <;> grind

theorem create_lists (known : List Table) (t : Tree) :
    ∃ own, Lists known t own (create (.ofTables known) t).2.diagnostics ∧
      Catalog.AddsAll (.ofTables known) own (create (.ofTables known) t).1 ∧
      (create (.ofTables known) t).1 = .ofTables (known ++ own) := by
  have hnothing : Catalog.AddsAll (.ofTables known) [] (.ofTables known) ∧
      Catalog.ofTables known = .ofTables (known ++ []) := ⟨.nil, by rw [List.append_nil]⟩
  cases hname : t.find? .identifier with
  | none =>
    simp only [create, hname]
    exact ⟨[], .unnamed (first?_eq_none hname), hnothing⟩
  | some x =>
    obtain ⟨i, name⟩ := x
    have hname' := first?_eq_some hname
    simp only [create, hname]
    split
    · rename_i htaken
      rw [Catalog.hasTable_ofTables, List.any_eq_true] at htaken
      exact ⟨[], .taken hname' (by simpa using htaken), hnothing⟩
    rename_i hnew
    rw [Bool.not_eq_true, Catalog.hasTable_ofTables_eq_false_iff] at hnew
    cases hlist : t.find? .fieldList with
    | none => exact ⟨[], .fieldless hname' hnew (first?_eq_none hlist), hnothing⟩
    | some y =>
      obtain ⟨j, list⟩ := y
      have hlist' := first?_eq_some hlist
      have hfields := @fields_accrue name.text [] [] (by simp) (list.findAll .fieldDefinition)
      rw [map_snd_findAll] at hfields
      have hdistinct := distinct_of_accrues hfields .nil
      simp only
      -- names are kept once, so the catalog has no reason to refuse the table
      generalize fields name.text [] (list.findAll .fieldDefinition) = fs at hfields hdistinct ⊢
      obtain ⟨columns, findings⟩ := fs
      cases columns with
      | nil => exact ⟨[], .columnless hname' hnew hlist' hfields, hnothing⟩
      | cons c cs =>
        have hadd := Catalog.add_ofTables (t := ⟨name.text, c :: cs⟩) hnew hdistinct
        have hinsert := Catalog.insert_ofTables (t := ⟨name.text, c :: cs⟩) hnew hdistinct
        refine ⟨_, .listed hname' hnew hlist' hfields (List.cons_ne_nil _ _), ?_, hinsert⟩
        simp only [List.isEmpty_cons, Bool.false_eq_true, if_false, hinsert]
        exact .cons hadd .nil

/-! ## Trees -/

theorem register_accrues (known : List Table) (ls : List (Path × Tree)) :
    ∃ tables, Accrues Lists known (ls.map (·.2)) tables
        (register (.ofTables known) ls).2.diagnostics ∧
      Catalog.AddsAll (.ofTables known) tables (register (.ofTables known) ls).1 ∧
      (register (.ofTables known) ls).1 = .ofTables (known ++ tables) := by
  induction ls generalizing known with
  | nil => exact ⟨[], .nil, .nil, by rw [List.append_nil, register]⟩
  | cons x more ih =>
    obtain ⟨path, t⟩ := x
    obtain ⟨own, hown, hadds, hcatalog⟩ := create_lists known t
    obtain ⟨later, hlater, haddsLater, hall⟩ := ih (known ++ own)
    rw [register_cons, hcatalog]
    rw [hcatalog] at hadds
    refine ⟨own ++ later, .cons hown hlater, hadds.append haddsLater, ?_⟩
    rw [hall, List.append_assoc]

/-- The catalog of a tree and the reports on its CREATE statements are those, and only those, that
come of judging these statements in pre-order, beginning without a table; every table that is handed
to the catalog is added to it. The reports on the other statements follow. -/
theorem analyze_catalog_listed (t : Tree) :
    let creates := t.walk.filter (·.kind == .createStatement)
    (∀ tables ds, Accrues Lists [] creates tables ds ↔
        (analyze t).catalog.tables = tables ∧ (created t).2.diagnostics = ds) ∧
      Catalog.AddsAll .empty (analyze t).catalog.tables (analyze t).catalog ∧
      (analyze t).diagnostics =
        (created t).2.diagnostics ++ (queried (analyze t).catalog t).diagnostics := by
  intro creates
  obtain ⟨tables, htables, hadds, hcatalog⟩ := register_accrues [] (t.locate isCreate)
  rw [map_snd_locate] at htables
  have hshown : (analyze t).catalog.tables = tables := by
    rw [show (analyze t).catalog = .ofTables tables from hcatalog, Catalog.tables_ofTables]
  rw [hshown]
  refine ⟨fun tables' ds => ⟨fun h => ?_, ?_⟩, hadds, rfl⟩
  · exact htables.unique h fun _ _ _ _ _ _ => Lists.unique
  · rintro ⟨rfl, rfl⟩
    exact htables

end Check

end SqlScript
