import SqlScript.Proofs.Tree.Lexical

/-!
Laws of changing every label of a tree. Looking for children and for nodes of some kinds looks at
kinds alone.
-/

namespace SqlScript.Tree

mutual

theorem map_map (f g : Label → Label) : (t : Tree) → (t.map f).map g = t.map (g ∘ f)
  | node l cs => by rw [map, map, map, mapAll_mapAll f g cs, Function.comp]

theorem mapAll_mapAll (f g : Label → Label) :
    (ts : List Tree) → mapAll g (mapAll f ts) = mapAll (g ∘ f) ts
  | [] => rfl
  | t :: ts => by rw [mapAll, mapAll, mapAll, map_map f g t, mapAll_mapAll f g ts]

end

mutual

theorem map_id : (t : Tree) → t.map id = t
  | node l cs => by rw [map, mapAll_id cs, id]

theorem mapAll_id : (ts : List Tree) → mapAll id ts = ts
  | [] => rfl
  | t :: ts => by rw [mapAll, map_id t, mapAll_id ts]

end

theorem label_map (f : Label → Label) (t : Tree) : (t.map f).label = f t.label := by
  cases t
  rfl

theorem kind_map {f : Label → Label} (hf : ∀ l, (f l).kind = l.kind) (t : Tree) :
    (t.map f).kind = t.kind := by
  rw [kind, label_map, hf, kind]

theorem children_map (f : Label → Label) (t : Tree) :
    (t.map f).children = t.children.map (map f) := by
  cases t
  rw [map, mapAll_eq_map]
  rfl

mutual

theorem walk_map (f : Label → Label) : (t : Tree) → (t.map f).walk = t.walk.map (map f)
  | node l cs => by rw [map, walk, walk, walkAll_mapAll f cs, List.map_cons, map]

theorem walkAll_mapAll (f : Label → Label) :
    (ts : List Tree) → walkAll (mapAll f ts) = (walkAll ts).map (map f)
  | [] => rfl
  | t :: ts => by
    rw [mapAll, walkAll, walkAll, walk_map f t, walkAll_mapAll f ts, List.map_append]

end

theorem update_map {f g g' : Label → Label} (h : ∀ l, g' (f l) = f (g l)) (path : Path) (t : Tree) :
    update (relabel g') path (t.map f) = (update (relabel g) path t).map f := by
  induction path generalizing t with
  | nil =>
    obtain ⟨l, cs⟩ := t
    simp [update, relabel, map, h]
  | cons i path ih =>
    obtain ⟨l, cs⟩ := t
    simp only [map, update, mapAll_eq_map]
    congr 1
    refine List.ext_getElem? fun j => ?_
    rw [List.getElem?_modify, List.getElem?_map, List.getElem?_map, List.getElem?_modify]
    split <;> simp [Function.comp_def, ih]

/-! ## Maps that keep kinds -/

section

variable {f : Label → Label} (hf : ∀ l, (f l).kind = l.kind)
include hf

/-- The leaves that stand for tokens stay such. -/
theorem lexical_map (t : Tree) : (t.map f).lexical = t.lexical.map (map f) := by
  rw [lexical, walk_map, List.filter_map, lexical]
  simp only [Function.comp_def, kind_map hf]

theorem find?_map (t : Tree) (kind : Kind) :
    (t.map f).find? kind = (t.find? kind).map (Prod.map id (map f)) := by
  rw [find?, children_map, List.zipIdx_map, List.find?_map, find?, Option.map_map, Option.map_map]
  simp [Function.comp_def, kind_map hf]

theorem findAll_map (t : Tree) (kind : Kind) :
    (t.map f).findAll kind = (t.findAll kind).map (Prod.map id (map f)) := by
  rw [findAll, children_map, List.zipIdx_map, List.filter_map, findAll, List.map_map, List.map_map]
  simp [Function.comp_def, kind_map hf]

end

mutual

theorem locate_map {f : Label → Label} (hf : ∀ l, (f l).kind = l.kind) (p : Kind → Bool) :
    (t : Tree) → (t.map f).locate p = (t.locate p).map (Prod.map id (map f))
  | node l cs => by
    have h := locateAll_map hf p 0 cs
    rw [map, locate, locate, h, List.map_append, hf]
    congr 1
    split
    · simp [map]
    · rfl

theorem locateAll_map {f : Label → Label} (hf : ∀ l, (f l).kind = l.kind) (p : Kind → Bool)
    (i : Nat) :
    (ts : List Tree) → locateAll p i (mapAll f ts) =
      (locateAll p i ts).map (Prod.map id (map f))
  | [] => rfl
  | t :: ts => by
    have h := locate_map hf p t
    have hs := locateAll_map hf p (i + 1) ts
    simp [mapAll, locateAll, h, hs, Function.comp_def]

end

end SqlScript.Tree
