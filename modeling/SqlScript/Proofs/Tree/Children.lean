import SqlScript.Tree.Basic

/-!
Parts of plain nodes, and the children of a kind without their numbers.
-/

namespace SqlScript.Tree

section

variable (kind : Kind) (text : String) (place : Place) (children : List Tree) (t : Token)

@[simp] theorem kind_plain : (plain kind text place children).kind = kind := rfl

@[simp] theorem kind_leaf : (leaf kind t).kind = kind := rfl

@[simp] theorem text_leaf : (leaf kind t).text = t.lexeme := rfl

end

/-! ## Children of a kind -/

variable (t : Tree) (kind : Kind)

theorem map_snd_find? : (t.find? kind).map (·.2) = t.children.find? (·.kind == kind) := by
  conv => rhs; rw [← List.zipIdx_map_fst 0 t.children, List.find?_map]
  rw [find?, Option.map_map]
  rfl

theorem exists_find?_eq {t : Tree} {kind : Kind} {child : Tree}
    (h : t.children.find? (·.kind == kind) = some child) :
    ∃ i, t.find? kind = some (i, child) := by
  rw [← map_snd_find?] at h
  obtain ⟨⟨i, u⟩, hfind, rfl⟩ := Option.map_eq_some_iff.1 h
  exact ⟨i, hfind⟩

theorem mem_of_find? {t : Tree} {kind : Kind} {x : Nat × Tree} (h : t.find? kind = some x) :
    x.2 ∈ t.children ∧ x.2.kind = kind := by
  have hfind : t.children.find? (·.kind == kind) = some x.2 := by
    rw [← map_snd_find?, h]
    rfl
  exact ⟨List.mem_of_find?_eq_some hfind, by simpa using List.find?_some hfind⟩

theorem map_snd_findAll :
    (t.findAll kind).map (·.2) = t.children.filter (·.kind == kind) := by
  conv => rhs; rw [← List.zipIdx_map_fst 0 t.children, List.filter_map]
  rw [findAll, List.map_map]
  rfl

theorem mem_of_mem_findAll {t : Tree} {kind : Kind} {x : Nat × Tree} (h : x ∈ t.findAll kind) :
    x.2 ∈ t.children ∧ x.2.kind = kind := by
  have hmem : x.2 ∈ (t.findAll kind).map (·.2) := List.mem_map_of_mem h
  rw [map_snd_findAll] at hmem
  exact ⟨(List.mem_filter.1 hmem).1, by simpa using (List.mem_filter.1 hmem).2⟩

end SqlScript.Tree
