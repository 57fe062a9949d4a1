import Mathlib.Data.List.Nodup
import SqlScript.Proofs.Tree.Traversal
import SqlScript.Report.Diagram

/-!
Diagrams of trees. Nodes are numbered in pre-order, and an edge leads to each from its parent; no
number is used twice, and whatever was built before does not count.
-/

namespace SqlScript.Diagram
open SqlScript.Tree

/-! ## Names -/

theorem toList_nodeName (n : Nat) :
    (nodeName n).toList = "node".toList ++ Nat.toDigits 10 n := by
  rw [nodeName, String.toList_append, ← Nat.toList_repr]
  rfl

theorem nodeName_injective : Function.Injective nodeName := by
  intro a b h
  have hdigits : Nat.toDigits 10 a = Nat.toDigits 10 b := by
    have hlist := congrArg String.toList h
    rw [toList_nodeName, toList_nodeName] at hlist
    exact List.append_cancel_left hlist
  rw [← Nat.ofDigitChars_ten_toDigits (n := a), hdigits, Nat.ofDigitChars_ten_toDigits]

/-- The number and the label that a statement gives to a node. -/
def Statement.node? : Statement → Option (Nat × Label)
  | .node id l => some (id, l)
  | .edge .. => none

/-! ## Numbers -/

/-- The number of nodes before the one at a path. -/
def number (t : Tree) (path : Path) : Nat := t.paths.idxOf path

def parentNumber (t : Tree) (path : Path) : Option Nat :=
  if path = [] then none else some (number t path.dropLast)

variable {t : Tree} {path : Path} {n : Nat}

theorem getElem?_paths_iff : t.paths[n]? = some path ↔ path ∈ t.paths ∧ number t path = n := by
  constructor
  · intro h
    obtain ⟨hn, rfl⟩ := List.getElem?_eq_some_iff.1 h
    exact ⟨List.getElem_mem hn, (nodup_paths t).idxOf_getElem n hn⟩
  · rintro ⟨hmem, rfl⟩
    exact List.getElem?_idxOf hmem

theorem getElem?_paths {u : Tree} (h : t.spots[n]? = some (path, u)) : t.paths[n]? = some path := by
  rw [paths, List.getElem?_map, h]
  rfl

theorem parentNumber_concat (t : Tree) (path : Path) (i : Nat) :
    parentNumber t (path ++ [i]) = some (number t path) := by
  rw [parentNumber, if_neg (by simp), List.dropLast_concat]

/-! ## Statements -/

/-- The statement of a node, and that of the edge from its parent. -/
def statementsAt (t : Tree) (n : Nat) (x : Path × Tree) : List Statement :=
  .node n x.2.label :: (parentNumber t x.1).toList.map (.edge · n)

def statements (t : Tree) : List Statement :=
  t.spots.zipIdx.flatMap fun x => statementsAt t x.2 x.1

theorem drawing_along (t : Tree) :
    drawing.Along t (fun n next => next = n) (fun path parent => parent = parentNumber t path)
      (statementsAt t) := by
  intro n path u next parent hspot hnext hparent
  obtain rfl := hnext
  obtain rfl := hparent
  refine ⟨rfl, rfl, ?_⟩
  simp only [drawing, List.map_reverse, List.reverse_reverse]
  refine kept_children_const (some next) u fun i c _ => ?_
  rw [parentNumber_concat, (getElem?_paths_iff.1 (getElem?_paths hspot)).2]

theorem run_drawing (t : Tree) :
    drawing.run 0 [(t, none)] = (statements t, t.walk.length) := by
  obtain ⟨hstatements, hcounter⟩ := (drawing_along t).run_root (s := 0) rfl rfl
  rw [length_spots] at hcounter
  exact Prod.ext hstatements hcounter

/-- The nodes are declared in pre-order, under the numbers from 0 on. -/
theorem filterMap_node?_statements (t : Tree) :
    (statements t).filterMap Statement.node? = t.walk.zipIdx.map fun x => (x.2, x.1.label) := by
  have hone (n : Nat) (x : Path × Tree) :
      (statementsAt t n x).filterMap Statement.node? = [(n, x.2.label)] := by
    simp [statementsAt, Statement.node?, List.filterMap_map, Function.comp_def]
  rw [statements, List.filterMap_flatMap, ← map_snd_spots, List.zipIdx_map, List.map_map,
    List.map_eq_flatMap]
  simp only [hone]
  rfl

theorem nodup_nodeNames (t : Tree) :
    (((statements t).filterMap Statement.node?).map fun x => nodeName x.1).Nodup := by
  have hnumbers : (t.walk.zipIdx.map (·.2)).Nodup := by
    rw [List.zipIdx_map_snd]
    exact List.nodup_range'
  rw [filterMap_node?_statements, List.map_map]
  have hnames := hnumbers.map nodeName_injective
  rwa [List.map_map] at hnames

theorem edge_mem_statementsAt_iff {a c : Nat} {x : Path × Tree} :
    .edge a c ∈ statementsAt t n x ↔ n = c ∧ parentNumber t x.1 = some a := by
  rw [statementsAt]
  cases parentNumber t x.1 <;> simp [eq_comm, and_comm]

/-- The edges lead from parents to children. -/
theorem edge_mem_statements_iff {a c : Nat} :
    .edge a c ∈ statements t ↔
      ∃ path i, t.paths[a]? = some path ∧ t.paths[c]? = some (path ++ [i]) := by
  rw [statements, List.mem_flatMap]
  constructor
  · rintro ⟨⟨⟨q, u⟩, n⟩, hspot, hedge⟩
    obtain ⟨rfl, hparent⟩ := edge_mem_statementsAt_iff.1 hedge
    have hq := getElem?_paths (List.mem_zipIdx_iff_getElem?.1 hspot)
    rcases List.eq_nil_or_concat' q with rfl | ⟨path, i, rfl⟩
    · cases hparent
    · simp only at hparent hq ⊢
      rw [parentNumber_concat] at hparent
      have hmem := mem_paths_of_concat (List.mem_of_getElem? hq)
      exact ⟨path, i, getElem?_paths_iff.2 ⟨hmem, Option.some.inj hparent⟩, hq⟩
  · rintro ⟨path, i, ha, hc⟩
    rw [paths, List.getElem?_map, Option.map_eq_some_iff] at hc
    obtain ⟨⟨q, u⟩, hspot, rfl⟩ := hc
    refine ⟨((path ++ [i], u), c), List.mem_zipIdx_iff_getElem?.2 hspot, ?_⟩
    rw [edge_mem_statementsAt_iff, parentNumber_concat, (getElem?_paths_iff.1 ha).2]
    exact ⟨rfl, rfl⟩

/-! ## Graphs -/

def drawn (format : String) (t : Tree) : Graph := ⟨format, t.walk.length, statements t⟩

theorem build_eq (b : Builder) (t : Tree) :
    b.build t = (Diagram.format b.format).map fun format =>
      (drawn format t, { b with counter := t.walk.length, graph := some (drawn format t) }) := by
  rw [Builder.build]
  cases Diagram.format b.format with
  | error e => rfl
  | ok format =>
    simp only [Builder.add, run_drawing, traverse_eq_walk]
    rfl

theorem buildAll_eq (b : Builder) (ts : List Tree) :
    b.buildAll ts = ts.mapM fun t =>
      (Diagram.format b.format).map fun format => (drawn format t, t.walk.length) := by
  induction ts generalizing b with
  | nil => rfl
  | cons t ts ih =>
    rw [Builder.buildAll, build_eq, List.mapM_cons]
    cases h : Diagram.format b.format with
    | error e => rfl
    | ok format =>
      simp only [Except.map]
      have hmore := ih { b with counter := t.walk.length, graph := some (drawn format t) }
      rw [h] at hmore
      exact congrArg (((drawn format t, t.walk.length) :: ·) <$> ·) hmore

end SqlScript.Diagram
