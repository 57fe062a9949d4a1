import Mathlib.Data.List.Induction
import SqlScript.Check.Analyzer
import SqlScript.Proofs.Check.Annotate
import SqlScript.Proofs.Check.Recast
import SqlScript.Proofs.Tree.Paths

/-!
Checking in place. No check reads what another one wrote, so it does not matter that the marks are
written on the way, nor what stood in the tree before; and checking a checked tree changes nothing.
-/

namespace SqlScript

namespace Tree

theorem label_get?_update (f : Label → Label) (path other : Path) (t : Tree) :
    ((update (relabel f) path t).get? other).map label =
      (t.get? other).map fun n => if path = other then f n.label else n.label := by
  induction path generalizing other t with
  | nil =>
    obtain ⟨l, cs⟩ := t
    cases other with
    | nil => rfl
    | cons j other =>
      rw [update, relabel, get?_cons, get?_cons]
      rfl
  | cons i path ih =>
    obtain ⟨l, cs⟩ := t
    cases other with
    | nil => rfl
    | cons j other =>
      rw [update, get?_cons, get?_cons, List.getElem?_modify]
      cases cs[j]? with
      | none => rfl
      | some c =>
        by_cases hij : i = j
        · subst hij
          simpa using ih other c
        · simp [hij]

end Tree

namespace Check
open SqlScript.Tree

/-! ## Marks on one node -/

/-- The label after marks on its node. -/
def written (marks : List Mark) (l : Label) : Label :=
  marks.foldl (fun l m => l.annotate (some m.dataType) m.symbolRef) l

/-- The last type stands, and the last reference that was given. -/
theorem written_eq (marks : List Mark) (l : Label) :
    written marks l =
      { l with
        dataType := (marks.getLast?.map (·.dataType)).or l.dataType
        symbolRef := (marks.filterMap (·.symbolRef)).getLast?.or l.symbolRef } := by
  induction marks using List.reverseRecOn with
  | nil => rfl
  | append_singleton marks m ih =>
    rw [written, List.foldl_concat, ← written, ih]
    cases hm : m.symbolRef <;> simp [Label.annotate, hm]

theorem written_written (marks : List Mark) (l : Label) :
    written marks (written marks l) = written marks l := by
  simp only [written_eq, ← Option.or_assoc, Option.or_self]

def marksAt (path : Path) (marks : List Mark) : List Mark := marks.filter (·.path = path)

theorem label_get?_annotate (marks : List Mark) (path : Path) (t : Tree) :
    ((annotate marks t).get? path).map label =
      ((t.get? path).map label).map (written (marksAt path marks)) := by
  induction marks generalizing t with
  | nil => exact (congrFun Option.map_id _).symm
  | cons m marks ih =>
    have hone (l : Label) : written (marksAt path (m :: marks)) l =
        written (marksAt path marks)
          (if m.path = path then l.annotate (some m.dataType) m.symbolRef else l) := by
      by_cases hm : m.path = path <;> simp [marksAt, written, hm]
    rw [annotate, List.foldl_cons, ← annotate, ih, Mark.write, label_get?_update, Option.map_map,
      Option.map_map]
    simp only [Function.comp_def, hone]

theorem annotate_annotate (marks : List Mark) (t : Tree) :
    annotate marks (annotate marks t) = annotate marks t := by
  refine ext_get? _ _ fun path => ?_
  rw [label_get?_annotate, label_get?_annotate, Option.map_map]
  simp only [Function.comp_def, written_written]

/-! ## Trees without marks -/

theorem recasting_bare : Label.Recasting id id bare where
  kind_eq _ := rfl
  place_eq _ := rfl
  condition_eq _ := rfl
  text_eq _ _ := rfl

theorem findings_annotate (marks : List Mark) (t : Tree) :
    catalog (annotate marks t) = catalog t ∧ findings (annotate marks t) = findings t := by
  obtain ⟨hcatalog, hfindings⟩ := findings_map recasting_bare t
  obtain ⟨hcatalog', hfindings'⟩ := findings_map recasting_bare (annotate marks t)
  rw [map_bare_annotate] at hcatalog' hfindings'
  exact ⟨hcatalog'.symm.trans hcatalog, hfindings'.symm.trans hfindings⟩

/-- What was checked is as it would be after another check. -/
theorem analyze_analyze (t : Tree) : analyze (analyze t).tree = analyze t := by
  obtain ⟨hcatalog, hfindings⟩ := findings_annotate (findings t).marks t
  rw [analyze, analyze, hcatalog, hfindings, annotate_annotate]

/-! ## Checks on the way -/

def Blind (check : Catalog → Tree → Catalog × Findings) : Prop :=
  ∀ catalog s, check catalog (s.map bare) = check catalog s

theorem blind_create : Blind create := create_map recasting_bare

theorem blind_query : Blind Work.query := by
  intro catalog s
  rw [Work.query, statement_map recasting_bare, Work.query]

def gathered (check : Catalog → Tree → Catalog × Findings) (catalog : Catalog) :
    List (Path × Tree) → Catalog × Findings
  | [] => (catalog, .none)
  | (path, s) :: more =>
    let (catalog, own) := check catalog s
    let (catalog, later) := gathered check catalog more
    (catalog, own.below path ++ later)

theorem gathered_create (catalog : Catalog) (ls : List (Path × Tree)) :
    gathered create catalog ls = register catalog ls := by
  induction ls generalizing catalog with
  | nil => rfl
  | cons x ls ih => simp only [gathered, register, ih]

theorem gathered_query (catalog : Catalog) (ls : List (Path × Tree)) :
    gathered Work.query catalog ls =
      (catalog, .join (ls.map fun (path, s) => (statement catalog s).below path)) := by
  induction ls with
  | nil => rfl
  | cons x ls ih => simp only [gathered, Work.query, ih, List.map_cons, Findings.join_cons]

section

variable {check : Catalog → Tree → Catalog × Findings} (hcheck : Blind check) {t : Tree}
include hcheck

theorem visit_annotate {path : Path} {s : Tree} (hs : t.get? path = some s) (marks : List Mark)
    (a : Analyzer) :
    Work.visit check ⟨annotate marks t, a⟩ path =
      ⟨annotate (marks ++ ((check a.catalog s).2.below path).marks) t,
        ⟨(check a.catalog s).1, a.diagnostics ++ (check a.catalog s).2.diagnostics⟩⟩ := by
  have hbare := congrArg (get? path) (map_bare_annotate marks t)
  rw [get?_map, get?_map, hs, Option.map_some, Option.map_eq_some_iff] at hbare
  obtain ⟨s', hs', hsame⟩ := hbare
  have hfound : check a.catalog s' = check a.catalog s := by
    rw [← hcheck a.catalog s', hsame, hcheck]
  simp only [Work.visit, hs', hfound, annotate_append]

theorem foldl_visit {ls : List (Path × Tree)} (hls : ∀ x ∈ ls, t.get? x.1 = some x.2)
    (marks : List Mark) (a : Analyzer) :
    (ls.map (·.1)).foldl (Work.visit check) ⟨annotate marks t, a⟩ =
      ⟨annotate (marks ++ (gathered check a.catalog ls).2.marks) t,
        ⟨(gathered check a.catalog ls).1,
          a.diagnostics ++ (gathered check a.catalog ls).2.diagnostics⟩⟩ := by
  induction ls generalizing marks a with
  | nil => simp [gathered, Findings.none]
  | cons x ls ih =>
    rw [List.forall_mem_cons] at hls
    rw [List.map_cons, List.foldl_cons, visit_annotate hcheck hls.1, ih hls.2]
    simp [gathered]

theorem pass_annotate (p : Kind → Bool) (marks : List Mark) (a : Analyzer) :
    Work.pass p check ⟨annotate marks t, a⟩ =
      ⟨annotate (marks ++ (gathered check a.catalog (t.locate p)).2.marks) t,
        ⟨(gathered check a.catalog (t.locate p)).1,
          a.diagnostics ++ (gathered check a.catalog (t.locate p)).2.diagnostics⟩⟩ := by
  have hkind (l : Label) : (bare l).kind = l.kind := rfl
  have hbare (u : Tree) : ((u.map bare).locate p).map (·.1) = (u.locate p).map (·.1) := by
    rw [locate_map hkind, List.map_map]
    rfl
  have hpaths : ((annotate marks t).locate p).map (·.1) = (t.locate p).map (·.1) := by
    rw [← hbare, map_bare_annotate, hbare]
  rw [Work.pass, hpaths]
  exact foldl_visit hcheck (get?_of_mem_locate p t) marks a

end

theorem passes_fresh (t : Tree) :
    Work.passes ⟨t, .fresh⟩ =
      ⟨annotate (findings t).marks t, ⟨catalog t, (findings t).diagnostics⟩⟩ := by
  have hcreated : Work.pass isCreate create ⟨t, .fresh⟩ =
      ⟨annotate (created t).2.marks t, ⟨catalog t, (created t).2.diagnostics⟩⟩ := by
    have hpass := pass_annotate blind_create isCreate [] .fresh (t := t)
    rwa [gathered_create] at hpass
  rw [Work.passes, hcreated, pass_annotate blind_query, gathered_query]
  rfl

/-- An analyzer finds in a tree what there is to find, whatever it did before. -/
theorem Analyzer.analyze_some (a : Analyzer) (t : Tree) :
    let found := Check.analyze t
    a.analyze (some t) = (some found.tree, ⟨found.catalog, found.diagnostics⟩) := by
  intro found
  have hcleared : a.cleared = .fresh := rfl
  rw [analyze, hcleared, passes_fresh]
  rfl

theorem Analyzer.analyzeAll_eq (a : Analyzer) (ts : List (Option Tree)) :
    a.analyzeAll ts = ts.map fresh.analyze := by
  induction ts generalizing a with
  | nil => rfl
  | cons t ts ih =>
    have hone : a.analyze t = fresh.analyze t := by
      cases t with
      | none => rfl
      | some t => rw [analyze_some, analyze_some]
    rw [analyzeAll, ih, hone, List.map_cons]

/-- Checking writes on nodes and changes nothing else of a tree, whatever the tree is. The catalog
and the diagnostics are those of the tree without its annotations, and a second check finds and
writes the same. A node has the type of the last check that reached it and the last reference that
one gave it, and keeps what it had only where there was none. One analyzer may check one tree after
the other: each is checked as by a new one. -/
theorem analyze_in_place (t : Tree) :
    let a := analyze t
    Analyzer.fresh.analyze (some t) = (some a.tree, ⟨a.catalog, a.diagnostics⟩) ∧
      a.tree.map bare = t.map bare ∧
      (analyze (t.map bare)).catalog = a.catalog ∧
      (analyze (t.map bare)).diagnostics = a.diagnostics ∧
      analyze a.tree = a ∧
      (∀ path n, t.get? path = some n → ∃ n', a.tree.get? path = some n' ∧
        n'.label.dataType =
          ((marksAt path (findings t).marks).getLast?.map (·.dataType)).or n.label.dataType ∧
        n'.label.symbolRef =
          ((marksAt path (findings t).marks).filterMap (·.symbolRef)).getLast?.or
            n.label.symbolRef) ∧
      ∀ (analyzer : Analyzer) (trees : List (Option Tree)),
        analyzer.analyzeAll trees = trees.map Analyzer.fresh.analyze := by
  intro a
  obtain ⟨hcatalog, hfindings⟩ := findings_map recasting_bare t
  refine ⟨Analyzer.fresh.analyze_some t, map_bare_annotate _ t, hcatalog,
    congrArg Findings.diagnostics hfindings, analyze_analyze t, fun path n hn => ?_,
    Analyzer.analyzeAll_eq⟩
  have hlabel := label_get?_annotate (findings t).marks path t
  rw [hn, Option.map_some, Option.map_some, written_eq, Option.map_eq_some_iff] at hlabel
  obtain ⟨n', hn', hlabel⟩ := hlabel
  exact ⟨n', hn', congrArg Label.dataType hlabel, congrArg Label.symbolRef hlabel⟩

/-- A table that is missing is marked as unknown, but an old reference is not taken away. -/
example :
    let name := node ⟨.identifier, "t", ⟨none, none⟩, some "TABLE", some "t"⟩ []
    (analyze (.plain .deleteStatement "" ⟨none, none⟩ [name])).tree =
      .plain .deleteStatement "" ⟨none, none⟩
        [node ⟨.identifier, "t", ⟨none, none⟩, some "UNKNOWN", some "t"⟩ []] := by
  decide +kernel

end Check

end SqlScript
