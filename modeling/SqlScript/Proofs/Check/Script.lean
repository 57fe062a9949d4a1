import SqlScript.Proofs.Check.Declaration
import SqlScript.Proofs.Check.Passes
import SqlScript.Proofs.Check.Statement
import SqlScript.Proofs.Grammar.Language

/-!
The check of a script: nothing is reported exactly if the script is well typed.
-/

namespace SqlScript.Check
open SqlScript.Text SqlScript.Grammar SqlScript.Phrase

/-! ## Scripts -/

theorem isCreate_kind_iff (s : Statement) : isCreate s.kind = true ↔ s = .create := by
  cases s <;> decide

theorem isQuery_kind_iff (s : Statement) : isQuery s.kind = true ↔ s ≠ .create := by
  cases s <;> decide

theorem table?_eq_none {s : Sentence} (h : s.statement ≠ .create) : s.table? = none := by
  obtain ⟨st, lead, body, finish⟩ := s
  cases body with
  | create => exact absurd rfl h
  | _ => rfl

theorem exists_table?_eq {s : Sentence} (h : s.statement = .create) :
    ∃ table, s.table? = some table := by
  obtain ⟨st, lead, body, finish⟩ := s
  cases body with
  | create => exact ⟨_, rfl⟩
  | _ => cases h

theorem creates_declared (script : List Sentence) :
    List.Forall₂ Creates ((script.filter fun s => isCreate s.statement.kind).map Sentence.tree)
      (declared script) := by
  induction script with
  | nil => exact .nil
  | cons s script ih =>
    by_cases hs : s.statement = .create
    · obtain ⟨table, htable⟩ := exists_table?_eq hs
      rw [List.filter_cons_of_pos (by rw [isCreate_kind_iff]; exact hs), List.map_cons, declared,
        List.filterMap_cons_some htable]
      exact .cons ⟨s, rfl, htable⟩ ih
    · rw [List.filter_cons_of_neg (by rw [isCreate_kind_iff]; exact hs), declared,
        List.filterMap_cons_none (table?_eq_none hs)]
      exact ih

section

variable {t : Tree} {script : List Sentence}

theorem map_snd_locate_script {p : Tree.Kind → Bool}
    (hp : ∀ k, p k = true → k.isStatement = true) (ht : IsScript t)
    (hchildren : t.children = script.map Sentence.tree) :
    (t.locate p).map (·.2) = (script.filter fun s => p s.statement.kind).map Sentence.tree := by
  rw [ht.locate_eq hp, map_snd_placed, hchildren, List.filter_map]
  rfl

theorem creates_located (ht : IsScript t) (hchildren : t.children = script.map Sentence.tree) :
    List.Forall₂ (fun x table => Creates x.2 table) (t.locate isCreate) (declared script) := by
  rw [← List.forall₂_map_left_iff (f := fun x : Tree.Path × Tree => x.2),
    map_snd_locate_script isStatement_of_isCreate ht hchildren]
  exact creates_declared script

theorem queried_iff (ht : IsScript t) (hchildren : t.children = script.map Sentence.tree)
    (catalog : Catalog) :
    (queried catalog t).diagnostics = [] ↔
      ∀ s ∈ script, s.statement ≠ .create → (statement catalog s.tree).diagnostics = [] := by
  have hlocated := map_snd_locate_script isStatement_of_isQuery ht hchildren
  have hall : ((t.locate isQuery).map (·.2)).flatMap (fun u => (statement catalog u).diagnostics) =
      (queried catalog t).diagnostics := by
    rw [queried, Findings.diagnostics_join, List.flatMap_map, List.flatMap_map]
    rfl
  rw [← hall, hlocated, List.flatMap_map, List.flatMap_eq_nil_iff]
  simp only [List.mem_filter, isQuery_kind_iff, and_imp]

theorem findings_iff (ht : IsScript t) (hchildren : t.children = script.map Sentence.tree) :
    (findings t).diagnostics = [] ↔ WellTyped script := by
  have hlocated := creates_located ht hchildren
  have hempty : Catalog.empty = .ofTables [] := rfl
  rw [findings, Findings.diagnostics_append, List.append_eq_nil_iff, queried_iff ht hchildren,
    catalog, created, hempty]
  constructor
  · rintro ⟨hcreated, hqueried⟩
    obtain ⟨hdistinct, hw⟩ := register_sound hlocated .nil hcreated
    have hcatalog := (register_complete [] hlocated hdistinct hw).2
    refine ⟨hdistinct, hw, ?_⟩
    intro s hs
    by_cases hc : s.statement = .create
    · exact .inl hc
    · have hnone := hqueried s hs hc
      rw [hcatalog] at hnone
      exact (statement_iff hdistinct hw hc).1 hnone
  · rintro ⟨hdistinct, hw, htyped⟩
    obtain ⟨hnone, hcatalog⟩ := register_complete [] hlocated hdistinct hw
    refine ⟨hnone, ?_⟩
    intro s hs hc
    rw [hcatalog]
    exact (statement_iff hdistinct hw hc).2 (htyped s hs)

end

theorem analyze_of_reads {tokens : List Token} {limit : Int} {script : List Sentence}
    (h : Reads tokens limit script) :
    (analyze (parse tokens limit).tree).diagnostics = [] ↔ WellTyped script :=
  findings_iff (isScript_parse tokens limit) (parse_of_reads h).1

/-- A text that parses is a script, and nothing is reported about it exactly if that script is well
typed. -/
theorem analyze_diagnostics_eq_nil_iff {source : String} {limit : Int}
    (h : (parse (scan source) limit).diagnostics = []) :
    (∃ script, Reads (scan source) limit script) ∧
      ∀ script, Reads (scan source) limit script →
        ((analyze (parse (scan source) limit).tree).diagnostics = [] ↔ WellTyped script) :=
  ⟨exists_reads h, fun _ => analyze_of_reads⟩

theorem analyze_table_used_before_created :
    let source := "UPDATE T SET n = 2.5 WHERE NOT (s LIKE 'x' OR n < 3);
      CREATE TABLE t (n INT, s TEXT); INSERT INTO t VALUES (NULL, 'y');"
    (parse (scan source) 2).diagnostics = [] ∧
      ∃ script, Reads (scan source) 2 script ∧ WellTyped script := by
  intro source
  have h : (parse (scan source) 2).diagnostics = [] := by decide +kernel
  obtain ⟨⟨script, hscript⟩, hiff⟩ := analyze_diagnostics_eq_nil_iff h
  refine ⟨h, script, hscript, (hiff script hscript).1 ?_⟩
  decide +kernel

end SqlScript.Check
