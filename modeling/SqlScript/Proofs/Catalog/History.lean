import SqlScript.Proofs.Catalog.Lookup
import SqlScript.Report.Json

/-!
Catalogs over whole runs: tables are handed to a new catalog one after the other, and some of them
are refused. The log of a run is the list of those that were added. What comes of the next table
hangs on the log alone, and so does all that the catalog shows.
-/

namespace SqlScript
open SqlScript.Text

namespace Table

theorem repeatedFrom_eq_none_iff {seen : List String} {cs : List Column} :
    repeatedFrom seen cs = none ↔
      (∀ c ∈ cs, lower c.name ∉ seen) ∧ cs.Pairwise fun c d => lower c.name ≠ lower d.name := by
  refine ⟨fun h => ?_, fun h => repeatedFrom_eq_none h.2 h.1⟩
  induction cs generalizing seen with
  | nil => exact ⟨nofun, .nil⟩
  | cons c cs ih =>
    rw [repeatedFrom] at h
    split at h
    · cases h
    · rename_i hc
      obtain ⟨hseen, hcs⟩ := ih h
      refine ⟨List.forall_mem_cons.2 ⟨by simpa using hc, ?_⟩, List.pairwise_cons.2 ⟨?_, hcs⟩⟩
      · exact fun d hd hmem => hseen d hd (List.mem_cons_of_mem _ hmem)
      · exact fun d hd heq => hseen d hd (heq ▸ List.mem_cons_self ..)

theorem repeatedColumn?_eq_none_iff {t : Table} :
    t.repeatedColumn? = none ↔ t.columns.Pairwise fun c d => lower c.name ≠ lower d.name := by
  simp [repeatedColumn?, repeatedFrom_eq_none_iff]

/-- The column that is refused is the first one whose name has been seen before. -/
theorem repeatedFrom_eq_some {seen : List String} {cs : List Column} {c : Column}
    (h : repeatedFrom seen cs = some c) :
    ∃ front back, cs = front ++ c :: back ∧ repeatedFrom seen front = none ∧
      (lower c.name ∈ seen ∨ ∃ d ∈ front, lower d.name = lower c.name) := by
  induction cs generalizing seen with
  | nil => cases h
  | cons d cs ih =>
    rw [repeatedFrom] at h
    split at h
    · rename_i hd
      cases h
      exact ⟨[], cs, rfl, rfl, .inl (by simpa using hd)⟩
    · rename_i hd
      obtain ⟨front, back, rfl, hfront, hc⟩ := ih h
      refine ⟨d :: front, back, rfl, by rwa [repeatedFrom, if_neg hd], ?_⟩
      rcases hc with hc | ⟨e, he, heq⟩
      · rcases List.mem_cons.1 hc with heq | hc
        · exact .inr ⟨d, List.mem_cons_self .., heq.symm⟩
        · exact .inl hc
      · exact .inr ⟨e, List.mem_cons_of_mem _ he, heq⟩

end Table

namespace Catalog

/-! ## Runs -/

/-- The catalog after some tables were handed to it, each of which it may have refused. -/
def insertAll (c : Catalog) (ts : List Table) : Catalog := ts.foldl insert c

def log (c : Catalog) : List Table → List Table
  | [] => []
  | t :: ts =>
    match c.add t with
    | .added c' => t :: log c' ts
    | .nameTaken => log c ts
    | .repeatedColumn _ _ => log c ts

structure Distinct (ts : List Table) : Prop where
  names : ts.Pairwise fun t u => lower t.name ≠ lower u.name
  columns : ∀ t ∈ ts, t.columns.Pairwise fun c d => lower c.name ≠ lower d.name

/-- What is answered to one more table, and the catalog after it, where `known` are the tables of the
catalog `c`. The name is looked at before the columns are; a refused table changes nothing, and the
column that it is refused for is the first one that has the name of an earlier one. -/
inductive Step (known : List Table) (c : Catalog) (t : Table) : Addition → Catalog → Prop where
  | taken (hname : ∃ u ∈ known, lower u.name = lower t.name) : Step known c t .nameTaken c
  | repeated {front back : List Column} {column : Column}
      (hname : ∀ u ∈ known, lower u.name ≠ lower t.name)
      (hcolumns : t.columns = front ++ column :: back)
      (hfront : front.Pairwise fun c d => lower c.name ≠ lower d.name)
      (hcolumn : ∃ d ∈ front, lower d.name = lower column.name) :
      Step known c t (.repeatedColumn t column) c
  | added (hname : ∀ u ∈ known, lower u.name ≠ lower t.name)
      (hcolumns : t.columns.Pairwise fun c d => lower c.name ≠ lower d.name) (c' : Catalog) :
      Step known c t (.added c') c'

theorem insertAll_concat (c : Catalog) (ts : List Table) (t : Table) :
    c.insertAll (ts ++ [t]) = (c.insertAll ts).insert t := by
  simp [insertAll]

theorem log_sublist (c : Catalog) (ts : List Table) : (c.log ts).Sublist ts := by
  fun_induction log c ts with
  | case1 => exact .slnil
  | case2 c t ts c' _ ih => exact ih.cons_cons t
  | case3 c t ts _ ih => exact ih.cons t
  | case4 c t ts _ _ _ ih => exact ih.cons t

/-! ## What a catalog shows -/

theorem tables_ofTables (ts : List Table) : (ofTables ts).tables = ts := by
  simp [tables, ofTables, Function.comp_def]

theorem hasTable_ofTables (ts : List Table) (name : String) :
    (ofTables ts).hasTable name = ts.any fun t => lower t.name == lower name := by
  rw [hasTable, table?_ofTables, List.isSome_find?]

/-! ## Steps -/

theorem Distinct.concat {ts : List Table} {t : Table} (h : Distinct ts)
    (hname : ∀ u ∈ ts, lower u.name ≠ lower t.name)
    (hcolumns : t.columns.Pairwise fun c d => lower c.name ≠ lower d.name) :
    Distinct (ts ++ [t]) := by
  refine ⟨List.pairwise_append.2 ⟨h.names, List.pairwise_singleton _ _, ?_⟩, ?_⟩
  · simpa using hname
  · exact List.forall_mem_append.2 ⟨h.columns, List.forall_mem_singleton.2 hcolumns⟩

theorem step_insert (ts : List Table) (t : Table) :
    Step ts (ofTables ts) t ((ofTables ts).add t) ((ofTables ts).insert t) := by
  rw [insert, add]
  cases hname : (ofTables ts).hasTable t.name with
  | true =>
    rw [hasTable_ofTables, List.any_eq_true] at hname
    exact .taken (by simpa using hname)
  | false =>
    rw [hasTable_ofTables_eq_false_iff] at hname
    cases hcolumns : t.repeatedColumn? with
    | some column =>
      obtain ⟨front, back, heq, hfront, hcolumn⟩ := Table.repeatedFrom_eq_some hcolumns
      exact .repeated hname heq (Table.repeatedFrom_eq_none_iff.1 hfront).2 (by simpa using hcolumn)
    | none => exact .added hname (Table.repeatedColumn?_eq_none_iff.1 hcolumns) _

/-- What a run keeps: the catalog is that of the tables it had and of those that were added, and
these are distinct. -/
theorem insertAll_ofTables {old : List Table} (h : Distinct old) (ts : List Table) :
    (ofTables old).insertAll ts = ofTables (old ++ (ofTables old).log ts) ∧
      Distinct (old ++ (ofTables old).log ts) := by
  induction ts generalizing old with
  | nil => simpa [insertAll, log] using h
  | cons t ts ih =>
    have hstep := step_insert old t
    rw [insertAll, List.foldl_cons, log]
    generalize hadd : (ofTables old).add t = answer at hstep
    generalize hinsert : (ofTables old).insert t = c at hstep
    cases hstep with
    | taken => exact ih h
    | repeated => exact ih h
    | added hname hcolumns =>
      have hlater := ih (h.concat hname hcolumns)
      rw [insert_ofTables hname hcolumns] at hinsert
      rw [List.append_assoc, List.singleton_append] at hlater
      exact hinsert ▸ hlater

/-! ## Whole runs -/

/-- A catalog shows the log of its run: every table that was added, as it was handed in and in that
order, and nothing of those that were refused. Tables are found in it by their names in lower case,
of which no two are the same, and so are their columns. -/
theorem run_shows_log (ts : List Table) :
    let c := empty.insertAll ts
    let log := empty.log ts
    (∀ t, Step log c t (c.add t) (empty.insertAll (ts ++ [t]))) ∧
      log.Sublist ts ∧ Distinct log ∧
      c.tables = log ∧ c.json = .array (log.map Table.json) ∧ c.size = log.length ∧
      ∀ name,
        let found := log.find? fun t => lower t.name == lower name
        c.table? name = found ∧ c.hasTable name = log.any (fun t => lower t.name == lower name) ∧
          ∀ column,
            c.hasColumn name column =
                found.any (fun t => t.columns.any fun d => lower d.name == lower column) ∧
              c.columnType? name column =
                found.bind fun t =>
                  (t.columns.find? fun d => lower d.name == lower column).map (·.dataType) := by
  intro c log
  have hempty : Distinct [] := ⟨.nil, nofun⟩
  obtain ⟨hrun, hdistinct⟩ := insertAll_ofTables hempty ts
  have hc : c = ofTables log := hrun
  have htables : c.tables = log := by rw [hc, tables_ofTables]
  have htable (name : String) :
      c.table? name = log.find? fun t => lower t.name == lower name := by
    rw [hc, table?_ofTables]
  refine ⟨fun t => ?_, log_sublist _ _, hdistinct, htables, ?_, ?_, fun name => ⟨htable name, ?_, ?_⟩⟩
  · have hstep := step_insert log t
    rwa [← hc, ← insertAll_concat] at hstep
  · rw [json, htables]
  · rw [← htables, size, tables, List.length_map]
  · rw [hc, hasTable_ofTables]
  · intro column
    have hcolumn (t : Table) :
        t.hasColumn column = t.columns.any fun d => lower d.name == lower column := by
      rw [Table.hasColumn, Table.column?, List.isSome_find?]
    rw [hasColumn, columnType?, htable]
    exact ⟨by simp only [hcolumn], rfl⟩

end Catalog

end SqlScript
