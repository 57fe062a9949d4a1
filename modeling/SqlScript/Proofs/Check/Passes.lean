import SqlScript.Check.Script
import SqlScript.Proofs.Grammar.Parts
import SqlScript.Proofs.Tree.Map

/-!
The passes over a script: since no statement stands inside another, each pass meets the statements
that it looks for once, as children of the program and in their order.
-/

namespace SqlScript.Check
open SqlScript.Grammar SqlScript.Phrase

/-! ## Statements stand side by side -/

/-- No node of the tree is a statement. -/
def Inner (t : Tree) : Prop := ∀ u ∈ t.walk, u.kind.isStatement = false

theorem inner_of_inside {t : Tree} (h : Inside t) : Inner t := by
  intro u hu
  have hpart := (h u hu).1
  cases hk : u.kind <;> rw [hk] at hpart <;> first | rfl | cases hpart

theorem inner_mark (t : Token) : Inner (Tree.leaf .error t) := by
  intro u hu
  rw [List.mem_singleton.1 hu]
  rfl

/-- A program whose children are statements, with no statement inside another. -/
structure IsScript (t : Tree) : Prop where
  kind_eq : t.kind = .program
  isStatement : ∀ s ∈ t.children, s.kind.isStatement = true
  inner : ∀ s ∈ t.children, ∀ c ∈ s.children, Inner c

theorem isStatement_kind (s : Statement) : s.kind.isStatement = true := by
  cases s <;> rfl

theorem inner_of_stated {s : Statement} {lead : Token} {parts : List Tree} {mark : Option Token}
    {t : Tree} (h : Stated s lead parts mark t) : ∀ c ∈ t.children, Inner c := by
  intro c hc
  rcases h.child c hc with hpart | ⟨u, rfl⟩
  · exact inner_of_inside hpart.inside
  · exact inner_mark u

theorem isScript_parse (tokens : List Token) (limit : Int) :
    IsScript (parse tokens limit).tree := by
  refine ⟨rfl, fun t ht => ?_, fun t ht => ?_⟩
  · obtain ⟨s, lead, parts, mark, h⟩ := exists_stated ht
    rw [h.tree_eq]
    exact isStatement_kind s
  · obtain ⟨s, lead, parts, mark, h⟩ := exists_stated ht
    exact inner_of_stated h

/-- All statements of a script are children of the program. -/
theorem IsScript.mem_children {t s : Tree} (h : IsScript t) (hs : s ∈ t.walk)
    (hkind : s.kind.isStatement = true) : s ∈ t.children := by
  rw [Tree.walk_eq] at hs
  rcases List.mem_cons.1 hs with rfl | hs
  · rw [h.kind_eq] at hkind
    cases hkind
  · obtain ⟨u, hu, hs⟩ := List.mem_flatMap.1 hs
    rw [Tree.walk_eq] at hs
    rcases List.mem_cons.1 hs with rfl | hs
    · exact hu
    · obtain ⟨c, hc, hs⟩ := List.mem_flatMap.1 hs
      rw [h.inner u hu c hc s hs] at hkind
      cases hkind

/-- A tree has the shape of a script if it has it but for its labels. -/
theorem isScript_of_map {f : Tree.Label → Tree.Label} (hf : ∀ l, (f l).kind = l.kind) {t : Tree}
    (h : IsScript (t.map f)) : IsScript t := by
  have hmap {u c : Tree} (hc : c ∈ u.children) : c.map f ∈ (u.map f).children := by
    rw [Tree.children_map]
    exact List.mem_map_of_mem hc
  refine ⟨?_, fun s hs => ?_, fun s hs c hc u hu => ?_⟩
  · rw [← Tree.kind_map hf, h.kind_eq]
  · rw [← Tree.kind_map hf]
    exact h.isStatement _ (hmap hs)
  · rw [← Tree.kind_map hf]
    refine h.inner _ (hmap hs) _ (hmap hc) _ ?_
    rw [Tree.walk_map]
    exact List.mem_map_of_mem hu

/-! ## Where they are found -/

section

variable {p : Tree.Kind → Bool} (hp : ∀ k, p k = true → k.isStatement = true)

include hp

theorem locate_of_inner {t : Tree} (h : Inner t) : t.locate p = [] := by
  rw [← List.map_eq_nil_iff (f := fun x : Tree.Path × Tree => x.2), Tree.map_snd_locate,
    List.filter_eq_nil_iff]
  intro u hu hpu
  have hstatement := hp _ hpu
  rw [h u hu] at hstatement
  cases hstatement

theorem locateAll_of_inner {ts : List Tree} (h : ∀ t ∈ ts, Inner t) (i : Nat) :
    Tree.locateAll p i ts = [] := by
  induction ts generalizing i with
  | nil => rfl
  | cons t ts ih =>
    rw [Tree.locateAll, locate_of_inner hp (h t (List.mem_cons_self ..)),
      ih fun u hu => h u (List.mem_cons_of_mem _ hu)]
    rfl

end

/-- Siblings of some kinds, with their paths below their parent; the first sibling has the number
`i`. -/
def placed (p : Tree.Kind → Bool) (i : Nat) : List Tree → List (Tree.Path × Tree)
  | [] => []
  | s :: ss => if p s.kind then ([i], s) :: placed p (i + 1) ss else placed p (i + 1) ss

theorem map_snd_placed (p : Tree.Kind → Bool) (i : Nat) (ss : List Tree) :
    (placed p i ss).map (·.2) = ss.filter (p ·.kind) := by
  induction ss generalizing i with
  | nil => rfl
  | cons s ss ih =>
    rw [placed, List.filter_cons]
    split
    · rw [List.map_cons, ih]
    · exact ih (i + 1)

/-- All that is found from number `i` on has a number from `i` on. -/
theorem path_of_mem_placed {p : Tree.Kind → Bool} {i : Nat} {ss : List Tree}
    {x : Tree.Path × Tree} (h : x ∈ placed p i ss) : ∃ j, i ≤ j ∧ x.1 = [j] := by
  induction ss generalizing i with
  | nil => cases h
  | cons s ss ih =>
    rw [placed] at h
    split at h
    · rcases List.mem_cons.1 h with rfl | h
      · exact ⟨i, le_rfl, rfl⟩
      · obtain ⟨j, hj, hx⟩ := ih h
        exact ⟨j, by omega, hx⟩
    · obtain ⟨j, hj, hx⟩ := ih h
      exact ⟨j, by omega, hx⟩

theorem IsScript.locate_eq {t : Tree} (h : IsScript t) {p : Tree.Kind → Bool}
    (hp : ∀ k, p k = true → k.isStatement = true) : t.locate p = placed p 0 t.children := by
  have hroot : p t.kind = false := by
    rw [Bool.eq_false_iff, h.kind_eq]
    intro hprogram
    cases hp _ hprogram
  have hall {ss : List Tree} (hinner : ∀ s ∈ ss, ∀ c ∈ s.children, Inner c) (i : Nat) :
      Tree.locateAll p i ss = placed p i ss := by
    induction ss generalizing i with
    | nil => rfl
    | cons s ss ih =>
      obtain ⟨l, cs⟩ := s
      have hnone := locateAll_of_inner hp (hinner _ (List.mem_cons_self ..)) 0
      rw [Tree.children_node] at hnone
      rw [Tree.locateAll, Tree.locate, hnone, List.append_nil, placed,
        ih fun u hu => hinner u (List.mem_cons_of_mem _ hu)]
      change _ = if p l.kind then _ else _
      split <;> rfl
  obtain ⟨l, cs⟩ := t
  rw [Tree.locate, if_neg (by simpa [Tree.kind] using hroot), List.nil_append]
  exact hall h.inner 0

theorem isStatement_of_isCreate : ∀ k, isCreate k = true → k.isStatement = true := by
  intro k hk
  cases k <;> first | rfl | cases hk

theorem isStatement_of_isQuery : ∀ k, isQuery k = true → k.isStatement = true := by
  intro k hk
  exact (Bool.and_eq_true_iff.1 hk).1

/-! ## What they find -/

theorem register_cons (catalog : Catalog) (path : Tree.Path) (t : Tree)
    (more : List (Tree.Path × Tree)) :
    register catalog ((path, t) :: more) =
      ((register (create catalog t).1 more).1,
        (create catalog t).2.below path ++ (register (create catalog t).1 more).2) := rfl

end SqlScript.Check
