import SqlScript.Proofs.Tree.Traversal
import SqlScript.Report.Listing

/-!
Outlines of trees. The rows are those of the nodes in pre-order; each is set in by the depth of its
node, and its connector says whether the node has a next sibling.
-/

namespace SqlScript

/-- The parts of a text between line feeds. -/
def Text.lines (s : String) : List String := (s.split '\n').toList.map (·.copy)

namespace Tree

/-! ## Rows -/

/-- How the node at a path hangs on its parent: it is the last child if none has the next number. -/
def jointAt (t : Tree) (path : Path) : Joint :=
  match path.getLast? with
  | none => .root
  | some i => if (t.get? (path.dropLast ++ [i + 1])).isSome then .middle else .last

theorem jointAt_concat {t u : Tree} {path : Path} {i : Nat} (hu : t.get? path = some u)
    (hi : i < u.children.length) : t.jointAt (path ++ [i]) = .ofChild u.children.length i := by
  rw [jointAt, List.getLast?_concat]
  simp only [List.dropLast_concat, get?_concat, hu, Option.bind_some, Joint.ofChild]
  grind

/-- The row of the node at a path. -/
def rowAt (t : Tree) (x : Path × Tree) : String := row x.1.length (t.jointAt x.1) x.2.label

theorem outlining_along (t : Tree) :
    outlining.Along t (fun _ _ => True) (fun path p => p = (path.length, t.jointAt path))
      fun _ x => [t.rowAt x] := by
  intro n path u s p hspot _ hp
  obtain rfl := hp
  have hu : t.get? path = some u := mem_spots_iff.1 (List.mem_of_getElem? hspot)
  refine ⟨rfl, trivial, ?_⟩
  simp only [outlining, List.reverse_reverse]
  refine kept_children (fun i => (path.length + 1, Joint.ofChild u.children.length i)) u ?_
  intro i c hc
  rw [jointAt_concat hu (List.getElem?_eq_some_iff.1 hc).1, List.length_append]
  rfl

theorem outline_eq (t : Tree) :
    outline (some t) = "\n".intercalate (t.spots.map t.rowAt) := by
  have hrows := ((outlining_along t).run_root (s := ()) trivial rfl).1
  rw [flatMap_zipIdx_singleton t.rowAt] at hrows
  rw [outline, ← hrows]
  rfl

/-! ## Lines -/

/-- No text of the node has a line feed. -/
structure Label.SingleLine (l : Label) : Prop where
  text : '\n' ∉ l.text.toList
  dataType : ∀ d ∈ l.dataType, '\n' ∉ d.toList
  symbolRef : ∀ r ∈ l.symbolRef, '\n' ∉ r.toList

instance (l : Label) : Decidable l.SingleLine :=
  decidable_of_iff (('\n' ∉ l.text.toList) ∧ (∀ d ∈ l.dataType, '\n' ∉ d.toList) ∧
    ∀ r ∈ l.symbolRef, '\n' ∉ r.toList)
    ⟨fun h => ⟨h.1, h.2.1, h.2.2⟩, fun h => ⟨h.text, h.dataType, h.symbolRef⟩⟩

theorem Label.SingleLine.caption {l : Label} (h : l.SingleLine) : '\n' ∉ l.caption.toList := by
  have hname : '\n' ∉ l.kind.name.toList := by cases l.kind <;> decide
  rw [Label.caption]
  split
  · exact hname
  · simp [hname, h.text]

theorem Label.SingleLine.annotations {l : Label} (h : l.SingleLine) :
    '\n' ∉ l.annotations.toList := by
  obtain ⟨kind, text, place, dataType, symbolRef⟩ := l
  have htype := h.dataType
  have href := h.symbolRef
  rw [Label.annotations, String.toList_intercalate]
  cases dataType <;> cases symbolRef <;> simp_all [List.intercalate]

theorem Label.SingleLine.line {l : Label} (h : l.SingleLine) : '\n' ∉ l.line.toList := by
  rw [Label.line]
  split
  · exact h.caption
  · simp [h.caption, h.annotations]

theorem Label.SingleLine.row {l : Label} (h : l.SingleLine) (depth : Nat) (joint : Joint) :
    '\n' ∉ (Tree.row depth joint l).toList := by
  have hjoint : '\n' ∉ joint.text.toList := by cases joint <;> decide
  simp [Tree.row, indentation, Text.rule, hjoint, h.line]

theorem lines_outline {t : Tree} (h : ∀ u ∈ t.walk, u.label.SingleLine) :
    Text.lines (outline (some t)) = t.spots.map t.rowAt := by
  have hrows : ∀ r ∈ t.spots.map t.rowAt, '\n' ∉ r.toList := by
    intro r hr
    obtain ⟨x, hx, rfl⟩ := List.mem_map.1 hr
    have hwalk : x.2 ∈ t.walk := map_snd_spots t ▸ List.mem_map_of_mem hx
    exact (h x.2 hwalk).row x.1.length (t.jointAt x.1)
  have hne : t.spots.map t.rowAt ≠ [] := by
    have hroot : ([], t) ∈ t.spots := mem_spots_iff.2 rfl
    exact List.ne_nil_of_mem (List.mem_map_of_mem hroot)
  have hlines := String.toList_split_intercalate hrows
  rw [if_neg hne] at hlines
  rw [outline_eq]
  exact hlines

end Tree

end SqlScript
