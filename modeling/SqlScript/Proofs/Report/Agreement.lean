import SqlScript.Proofs.Report.Diagram
import SqlScript.Proofs.Report.Outline
import SqlScript.Proofs.Report.Records

/-!
All traversals of a tree agree. Whatever order they push children in and whatever they keep for them,
they come to the same nodes, each once.
-/

namespace SqlScript.Tree
open SqlScript.Diagram

/-- A walk, the rows of an outline and the nodes of a diagram are the nodes of the tree in pre-order;
records are nested as the nodes are, and edges lead from parents to children. A diagram is that of its
tree alone, whatever was built before. -/
theorem traversals_agree (t : Tree) :
    (t.traverse = t.walk ∧ t.spots.map (·.2) = t.walk ∧ t.paths.Pairwise (· < ·) ∧
      ∀ path u, (path, u) ∈ t.spots ↔ t.get? path = some u) ∧
    t.json = t.label.json (t.children.map json) ∧
    ((∀ u ∈ t.walk, u.label.SingleLine) →
      Text.lines (outline (some t)) = t.spots.map fun (path, u) =>
        indentation path.length ++ (t.jointAt path).text ++ u.label.line) ∧
    ((statements t = t.spots.zipIdx.flatMap fun ((path, u), n) =>
        .node n u.label :: (parentNumber t path).toList.map (.edge · n)) ∧
      ((statements t).filterMap Statement.node? = t.walk.zipIdx.map fun (u, n) => (n, u.label)) ∧
      (((statements t).filterMap Statement.node?).map fun (n, _) => nodeName n).Nodup ∧
      ∀ a c, .edge a c ∈ statements t ↔
        ∃ path i, t.paths[a]? = some path ∧ t.paths[c]? = some (path ++ [i])) ∧
    (∀ b : Builder, b.build t = (Diagram.format b.format).map fun format =>
      (drawn format t, { b with counter := t.walk.length, graph := some (drawn format t) })) ∧
    ∀ (b : Builder) (ts : List Tree), b.buildAll ts = ts.mapM fun t =>
      (Diagram.format b.format).map fun format => (drawn format t, t.walk.length) :=
  ⟨⟨traverse_eq_walk t, map_snd_spots t, pairwise_paths t, fun _ _ => mem_spots_iff⟩, json_eq t,
    lines_outline,
    ⟨rfl, filterMap_node?_statements t, nodup_nodeNames t, fun _ _ => edge_mem_statements_iff⟩,
    fun b => build_eq b t, buildAll_eq⟩

end SqlScript.Tree
