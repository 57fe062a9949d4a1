import SqlScript.Proofs.Check.Annotate
import SqlScript.Proofs.Check.Passes

/-!
Statements are checked independently: what is found in one, apart from CREATE, hangs on the catalog
and on that statement alone, and the catalog hangs on the CREATE statements alone. So scripts that
interleave the same statements in different ways get the same results.
-/

namespace SqlScript.Check
open SqlScript.Tree SqlScript.Grammar

/-- The CREATE statements of a script. -/
def creates (t : Tree) : List Tree := t.children.filter (isCreate ·.kind)

/-- The other statements of a script. -/
def queries (t : Tree) : List Tree := t.children.filter (isQuery ·.kind)

/-- The script with nothing but its CREATE statements. -/
def onlyCreates (t : Tree) : Tree := node t.label (creates t)

theorem isQuery_of_not_isCreate {kind : Kind} (h : kind.isStatement = true)
    (hc : isCreate kind = false) : isQuery kind = true := by
  rw [isQuery, h, bne, ← isCreate, hc]
  rfl

theorem not_isQuery_of_isCreate {kind : Kind} (h : isCreate kind = true) :
    isQuery kind = false := by
  cases kind <;> first | rfl | cases h

/-! ## What the passes find -/

/-- The first pass does not look at the paths of the statements. -/
theorem register_congr {ls ls' : List (Path × Tree)} (h : ls.map (·.2) = ls'.map (·.2))
    (catalog : Catalog) :
    (register catalog ls).1 = (register catalog ls').1 ∧
      (register catalog ls).2.diagnostics = (register catalog ls').2.diagnostics := by
  induction ls generalizing ls' catalog with
  | nil =>
    cases ls' with
    | nil => exact ⟨rfl, rfl⟩
    | cons => cases h
  | cons x ls ih =>
    cases ls' with
    | nil => cases h
    | cons y ls' =>
      obtain ⟨path, s⟩ := x
      obtain ⟨path', s'⟩ := y
      obtain ⟨rfl, hmore⟩ := List.cons_eq_cons.1 h
      obtain ⟨hcatalog, hdiagnostics⟩ := ih hmore (create catalog s).1
      refine ⟨hcatalog, ?_⟩
      simpa [register] using hdiagnostics

section

variable {t u : Tree}

theorem IsScript.created_congr (ht : IsScript t) (hu : IsScript u) (h : creates t = creates u) :
    catalog t = catalog u ∧ (created t).2.diagnostics = (created u).2.diagnostics := by
  refine register_congr ?_ .empty
  rw [ht.locate_eq isStatement_of_isCreate, hu.locate_eq isStatement_of_isCreate, map_snd_placed,
    map_snd_placed]
  exact h

theorem isScript_onlyCreates (ht : IsScript t) : IsScript (onlyCreates t) :=
  ⟨ht.kind_eq, fun s hs => ht.isStatement s (List.mem_of_mem_filter hs),
    fun s hs => ht.inner s (List.mem_of_mem_filter hs)⟩

theorem creates_onlyCreates (t : Tree) : creates (onlyCreates t) = creates t :=
  (List.filter_filter ..).trans (List.filter_congr fun _ _ => Bool.and_self _)

theorem queries_onlyCreates (t : Tree) : queries (onlyCreates t) = [] := by
  refine List.filter_eq_nil_iff.2 fun s hs hq => ?_
  rw [not_isQuery_of_isCreate (List.mem_filter.1 hs).2] at hq
  cases hq

theorem IsScript.diagnostics_queried (ht : IsScript t) (catalog : Catalog) :
    (queried catalog t).diagnostics =
      (queries t).flatMap fun s => (statement catalog s).diagnostics := by
  rw [queries, ← map_snd_placed isQuery 0, ← ht.locate_eq isStatement_of_isQuery, queried,
    Findings.diagnostics_join, List.flatMap_map, List.flatMap_map]
  rfl

theorem IsScript.diagnostics_onlyCreates (ht : IsScript t) :
    (analyze (onlyCreates t)).diagnostics = (created t).2.diagnostics := by
  have halone := isScript_onlyCreates ht
  simp only [analyze, findings, Findings.diagnostics_append, halone.diagnostics_queried,
    queries_onlyCreates, List.flatMap_nil, List.append_nil]
  exact (halone.created_congr ht (creates_onlyCreates t)).2

theorem IsScript.diagnostics_analyze (ht : IsScript t) :
    (analyze t).diagnostics = (created t).2.diagnostics ++
      (queries t).flatMap fun s => (statement (catalog t) s).diagnostics := by
  rw [← ht.diagnostics_queried]
  rfl

end

/-! ## What they write -/

/-- The statements of a script with the marks of what is found in each. The first pass stands at
`catalog` when it comes to them, and ends with `whole`. -/
def annotated (whole catalog : Catalog) : List Tree → List Tree
  | [] => []
  | s :: ss =>
    if isCreate s.kind then
      annotate (create catalog s).2.marks s :: annotated whole (create catalog s).1 ss
    else annotate (statement whole s).marks s :: annotated whole catalog ss

section

variable {i j : Nat} {ls : List (Path × Tree)}

theorem into_register_cons (catalog : Catalog) (s : Tree) :
    into i (register catalog (([j], s) :: ls)).2.marks =
      into i ((create catalog s).2.under j).marks ++
        into i (register (create catalog s).1 ls).2.marks := by
  rw [register_cons, Findings.marks_append, into_append]
  rfl

theorem into_register (h : ∀ x ∈ ls, ∃ j, j ≠ i ∧ x.1 = [j]) (catalog : Catalog) :
    into i (register catalog ls).2.marks = [] := by
  induction ls generalizing catalog with
  | nil => rfl
  | cons x ls ih =>
    obtain ⟨path, s⟩ := x
    obtain ⟨j, hj, rfl⟩ := h _ (List.mem_cons_self ..)
    rw [into_register_cons, into_under_of_ne _ hj, List.nil_append]
    exact ih (fun y hy => h y (List.mem_cons_of_mem _ hy)) _

/-- What the second pass finds in statements that stand at some paths. -/
def checked (catalog : Catalog) (ls : List (Path × Tree)) : Findings :=
  .join (ls.map fun (path, s) => (statement catalog s).below path)

theorem into_checked_cons (catalog : Catalog) (s : Tree) :
    into i (checked catalog (([j], s) :: ls)).marks =
      into i ((statement catalog s).under j).marks ++ into i (checked catalog ls).marks :=
  into_append ..

theorem into_checked (h : ∀ x ∈ ls, ∃ j, j ≠ i ∧ x.1 = [j]) (catalog : Catalog) :
    into i (checked catalog ls).marks = [] := by
  induction ls with
  | nil => rfl
  | cons x ls ih =>
    obtain ⟨path, s⟩ := x
    obtain ⟨j, hj, rfl⟩ := h _ (List.mem_cons_self ..)
    rw [into_checked_cons, into_under_of_ne _ hj, List.nil_append]
    exact ih fun y hy => h y (List.mem_cons_of_mem _ hy)

end

/-- The findings of both passes, written among siblings of which the first has the number `i`. -/
theorem mapIdx_annotate (whole catalog : Catalog) (i : Nat) {ss : List Tree}
    (h : ∀ s ∈ ss, s.kind.isStatement = true) :
    (ss.mapIdx fun k s =>
      annotate (into (k + i) (register catalog (placed isCreate i ss)).2.marks ++
        into (k + i) (checked whole (placed isQuery i ss)).marks) s) =
      annotated whole catalog ss := by
  induction ss generalizing i catalog with
  | nil => rfl
  | cons s ss ih =>
    have hlater (p : Kind → Bool) : ∀ x ∈ placed p (i + 1) ss, ∃ j, j ≠ i ∧ x.1 = [j] := by
      intro x hx
      obtain ⟨j, hj, hpath⟩ := path_of_mem_placed hx
      exact ⟨j, by omega, hpath⟩
    have hstep (k : Nat) : k + 1 + i = k + (i + 1) := by omega
    have hne (k : Nat) : i ≠ k + (i + 1) := by omega
    have hmore (catalog : Catalog) := ih catalog (i + 1) fun u hu => h u (List.mem_cons_of_mem _ hu)
    rw [List.mapIdx_cons, annotated, placed, placed]
    cases hc : isCreate s.kind with
    | true =>
      simp only [not_isQuery_of_isCreate hc, if_true, Bool.false_eq_true, if_false, Nat.zero_add,
        hstep, into_register_cons, into_under_self, into_under_of_ne _ (hne _),
        into_register (hlater _), into_checked (hlater _), List.append_nil, List.nil_append,
        ← hmore]
    | false =>
      have hq := isQuery_of_not_isCreate (h s (List.mem_cons_self ..)) hc
      simp only [hq, if_true, Bool.false_eq_true, if_false, Nat.zero_add, hstep, into_checked_cons,
        into_under_self, into_under_of_ne _ (hne _), into_register (hlater _),
        into_checked (hlater _), List.append_nil, List.nil_append, ← hmore]

theorem labelled_register {ls : List (Path × Tree)} (h : ∀ x ∈ ls, ∃ j, x.1 = [j])
    (catalog : Catalog) (l : Label) : labelled (register catalog ls).2.marks l = l := by
  induction ls generalizing catalog with
  | nil => rfl
  | cons x ls ih =>
    obtain ⟨path, s⟩ := x
    obtain ⟨j, rfl⟩ := h _ (List.mem_cons_self ..)
    rw [register_cons, Findings.marks_append, labelled_append, ← Findings.under, labelled_under]
    exact ih (fun y hy => h y (List.mem_cons_of_mem _ hy)) _

theorem labelled_checked {ls : List (Path × Tree)} (h : ∀ x ∈ ls, ∃ j, x.1 = [j])
    (catalog : Catalog) (l : Label) : labelled (checked catalog ls).marks l = l := by
  refine labelled_join l fun f hf => ?_
  obtain ⟨⟨path, s⟩, hx, rfl⟩ := List.mem_map.1 hf
  obtain ⟨j, rfl⟩ := h _ hx
  exact labelled_under j (statement catalog s) l

theorem IsScript.tree_analyze {t : Tree} (ht : IsScript t) :
    (analyze t).tree = node t.label (annotated (catalog t) .empty t.children) := by
  have hpaths (p : Kind → Bool) : ∀ x ∈ placed p 0 t.children, ∃ j, x.1 = [j] := by
    intro x hx
    obtain ⟨j, -, hpath⟩ := path_of_mem_placed hx
    exact ⟨j, hpath⟩
  have hmarks : (findings t).marks =
      (register .empty (placed isCreate 0 t.children)).2.marks ++
        (checked (catalog t) (placed isQuery 0 t.children)).marks := by
    rw [← ht.locate_eq isStatement_of_isCreate, ← ht.locate_eq isStatement_of_isQuery]
    rfl
  obtain ⟨l, cs⟩ := t
  have hall := mapIdx_annotate (catalog (node l cs)) .empty 0 ht.isStatement
  simp only [Nat.add_zero, ← into_append] at hall
  rw [analyze, hmarks, annotate_node, labelled_append, labelled_register (hpaths _),
    labelled_checked (hpaths _), ← hall]
  rfl

/-! ## Interleavings -/

section

variable (whole catalog : Catalog)

theorem annotated_cons (s : Tree) (ss : List Tree) :
    ∃ catalog' marks, annotated whole catalog (s :: ss) =
      annotate marks s :: annotated whole catalog' ss := by
  rw [annotated]
  split <;> exact ⟨_, _, rfl⟩

theorem map_kind_annotated (ss : List Tree) :
    (annotated whole catalog ss).map Tree.kind = ss.map Tree.kind := by
  induction ss generalizing catalog with
  | nil => rfl
  | cons s ss ih =>
    obtain ⟨catalog', marks, h⟩ := annotated_cons whole catalog s ss
    rw [h, List.map_cons, kind_annotate, ih, List.map_cons]

/-- Whatever stands between them, the CREATE statements get the same marks. -/
theorem filter_isCreate_annotated (ss : List Tree) :
    (annotated whole catalog ss).filter (isCreate ·.kind) =
      annotated whole catalog (ss.filter (isCreate ·.kind)) := by
  induction ss generalizing catalog with
  | nil => rfl
  | cons s ss ih =>
    rw [annotated]
    cases hc : isCreate s.kind with
    | true =>
      rw [if_pos rfl, List.filter_cons_of_pos (by rwa [kind_annotate]), ih,
        List.filter_cons_of_pos (by exact hc), annotated, hc, if_pos rfl]
    | false =>
      rw [if_neg (by simp), List.filter_cons_of_neg (by simp [kind_annotate, hc]), ih,
        List.filter_cons_of_neg (by simp [hc])]

theorem filter_isQuery_annotated (ss : List Tree) :
    (annotated whole catalog ss).filter (isQuery ·.kind) =
      (ss.filter (isQuery ·.kind)).map fun s => annotate (statement whole s).marks s := by
  induction ss generalizing catalog with
  | nil => rfl
  | cons s ss ih =>
    rw [annotated]
    cases hc : isCreate s.kind with
    | true =>
      have hq := not_isQuery_of_isCreate hc
      rw [if_pos rfl, List.filter_cons_of_neg (by simp [kind_annotate, hq]), ih,
        List.filter_cons_of_neg (by simp [hq])]
    | false =>
      rw [if_neg (by simp), List.filter_cons, List.filter_cons, kind_annotate, ih]
      split <;> rfl

end

section

variable {t u : Tree}

theorem IsScript.creates_analyze (ht : IsScript t) :
    creates (analyze t).tree = annotated (catalog t) .empty (creates t) := by
  rw [ht.tree_analyze]
  exact filter_isCreate_annotated ..

theorem IsScript.queries_analyze (ht : IsScript t) :
    queries (analyze t).tree =
      (queries t).map fun s => annotate (statement (catalog t) s).marks s := by
  rw [ht.tree_analyze]
  exact filter_isQuery_annotated ..

/-- Scripts with the same CREATE statements, whatever stands between these, get the same catalog and
the same marks on the CREATE statements. The diagnostics are those of the CREATE statements alone,
and behind them those of each other statement, which hang on the catalog and on that statement, as
do its marks. So with the same other statements in the same order all is the same. -/
theorem analyze_interleaved (ht : IsScript t) (hu : IsScript u) (hcreates : creates t = creates u) :
    (analyze t).catalog = (analyze u).catalog ∧
      creates (analyze t).tree = creates (analyze u).tree ∧
      (∀ v ∈ [t, u],
        (analyze v).tree.children.map Tree.kind = v.children.map Tree.kind ∧
          queries (analyze v).tree = (queries v).map (fun s =>
            annotate (statement (analyze t).catalog s).marks s) ∧
          (analyze v).diagnostics = (analyze (onlyCreates t)).diagnostics ++
            (queries v).flatMap fun s => (statement (analyze t).catalog s).diagnostics) ∧
      (queries t = queries u →
        queries (analyze t).tree = queries (analyze u).tree ∧
          (analyze t).diagnostics = (analyze u).diagnostics) := by
  obtain ⟨hcatalog, hcreated⟩ := ht.created_congr hu hcreates
  have hkinds {v : Tree} (hv : IsScript v) :
      (analyze v).tree.children.map Tree.kind = v.children.map Tree.kind := by
    rw [hv.tree_analyze]
    exact map_kind_annotated ..
  have ht' : (analyze t).catalog = catalog t := rfl
  refine ⟨hcatalog, ?_, ?_, fun hqueries => ⟨?_, ?_⟩⟩
  · rw [ht.creates_analyze, hu.creates_analyze, hcatalog, hcreates]
  · rw [ht', List.forall_mem_cons, List.forall_mem_singleton, ht.diagnostics_onlyCreates]
    refine ⟨⟨hkinds ht, ht.queries_analyze, ht.diagnostics_analyze⟩, hkinds hu, ?_, ?_⟩
    · rw [hcatalog, hu.queries_analyze]
    · rw [hcreated, hcatalog, hu.diagnostics_analyze]
  · rw [ht.queries_analyze, hu.queries_analyze, hcatalog, hqueries]
  · rw [ht.diagnostics_analyze, hu.diagnostics_analyze, hcreated, hcatalog, hqueries]

end

/-- Four statements in two orders, one of them with a name that is taken, one with a name that is no
column, and one that breaks off. -/
theorem analyze_interleaved_four_statements :
    let a := lexemes "CREATE TABLE t (n INT);"
    let b := lexemes "CREATE TABLE T (k TEXT);"
    let c := lexemes "SELECT n, k FROM T;"
    let d := lexemes "UPDATE t SET n = 'x' WHERE n n;"
    let t := (parse (a ++ b ++ c ++ d) 2).tree
    let u := (parse (c ++ a ++ d ++ b) 2).tree
    creates t = creates u ∧ queries t = queries u ∧ t.children ≠ u.children ∧
      (analyze t).diagnostics.length = 3 ∧ (analyze t).diagnostics = (analyze u).diagnostics := by
  intro a b c d t u
  have hcreates : creates t = creates u := by decide +kernel
  have hqueries : queries t = queries u := by decide +kernel
  obtain ⟨-, -, -, hsame⟩ :=
    analyze_interleaved (isScript_parse _ 2) (isScript_parse _ 2) hcreates
  exact ⟨hcreates, hqueries, by decide +kernel, by decide +kernel, (hsame hqueries).2⟩

end SqlScript.Check
