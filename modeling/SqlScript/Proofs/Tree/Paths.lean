import SqlScript.Proofs.Tree.Map

/-!
Nodes at paths. The nodes of a tree in pre-order are those at its paths in lexicographic order, each
once.
-/

namespace SqlScript.Tree

theorem get?_cons (l : Label) (cs : List Tree) (i : Nat) (path : Path) :
    (node l cs).get? (i :: path) = cs[i]?.bind (get? path) := by
  rw [get?]
  cases cs[i]? <;> rfl

theorem get?_map (f : Label → Label) (path : Path) (t : Tree) :
    (t.map f).get? path = (t.get? path).map (map f) := by
  induction path generalizing t with
  | nil => rfl
  | cons i path ih =>
    obtain ⟨l, cs⟩ := t
    rw [map, mapAll_eq_map, get?_cons, get?_cons, List.getElem?_map]
    cases cs[i]? with
    | none => rfl
    | some c => exact ih c

theorem get?_concat (t : Tree) (path : Path) (i : Nat) :
    t.get? (path ++ [i]) = (t.get? path).bind fun u => u.children[i]? := by
  induction path generalizing t with
  | nil =>
    obtain ⟨l, cs⟩ := t
    rw [List.nil_append, get?_cons]
    cases h : cs[i]? <;> simp [get?, h]
  | cons j path ih =>
    obtain ⟨l, cs⟩ := t
    rw [List.cons_append, get?_cons, get?_cons]
    cases cs[j]? with
    | none => rfl
    | some c => exact ih c

/-! ## Listing -/

mutual

theorem get?_of_mem_locate (p : Kind → Bool) :
    (t : Tree) → ∀ x ∈ t.locate p, t.get? x.1 = some x.2
  | node l cs => by
    intro x hx
    rw [locate, List.mem_append] at hx
    rcases hx with hx | hx
    · split at hx
      · rw [List.mem_singleton.1 hx]
        rfl
      · cases hx
    · obtain ⟨i, path, hpath, hget⟩ := get?_of_mem_locateAll p 0 cs x hx
      rw [hpath, get?_cons, Nat.zero_add, hget]

theorem get?_of_mem_locateAll (p : Kind → Bool) (k : Nat) :
    (ts : List Tree) → ∀ x ∈ locateAll p k ts,
      ∃ i path, x.1 = (k + i) :: path ∧ ts[i]?.bind (get? path) = some x.2
  | [] => by simp [locateAll]
  | t :: ts => by
    intro x hx
    rw [locateAll, List.mem_append] at hx
    rcases hx with hx | hx
    · obtain ⟨y, hy, rfl⟩ := List.mem_map.1 hx
      exact ⟨0, y.1, rfl, get?_of_mem_locate p t y hy⟩
    · obtain ⟨i, path, hpath, hget⟩ := get?_of_mem_locateAll p (k + 1) ts x hx
      exact ⟨i + 1, path, by rw [hpath, Nat.add_right_comm, Nat.add_assoc], hget⟩

end

mutual

theorem mem_locate_of_get? (p : Kind → Bool) :
    (t : Tree) → ∀ (path : Path) (u : Tree), t.get? path = some u → p u.kind → (path, u) ∈ t.locate p
  | node l cs => by
    intro path u hget hu
    rw [locate]
    cases path with
    | nil =>
      cases hget
      rw [if_pos (show p l.kind from hu)]
      exact List.mem_append_left _ (List.mem_singleton_self _)
    | cons i path =>
      rw [get?_cons] at hget
      have hmem := mem_locateAll_of_get? p 0 cs i path u hget hu
      rw [Nat.zero_add] at hmem
      exact List.mem_append_right _ hmem

theorem mem_locateAll_of_get? (p : Kind → Bool) (k : Nat) :
    (ts : List Tree) → ∀ (i : Nat) (path : Path) (u : Tree), ts[i]?.bind (get? path) = some u →
      p u.kind → ((k + i) :: path, u) ∈ locateAll p k ts
  | [] => by simp
  | t :: ts => by
    intro i path u hget hu
    rw [locateAll]
    cases i with
    | zero =>
      exact List.mem_append_left _
        (List.mem_map.2 ⟨(path, u), mem_locate_of_get? p t path u hget hu, rfl⟩)
    | succ i =>
      have hmem := mem_locateAll_of_get? p (k + 1) ts i path u hget hu
      rw [Nat.add_right_comm, Nat.add_assoc] at hmem
      exact List.mem_append_right _ hmem

end

mutual

/-- A node comes before those below it, and these from left to right. -/
theorem pairwise_locate (p : Kind → Bool) :
    (t : Tree) → (t.locate p).Pairwise fun x y => x.1 < y.1
  | node l cs => by
    rw [locate, List.pairwise_append]
    refine ⟨?_, pairwise_locateAll p 0 cs, fun x hx y hy => ?_⟩
    · split
      · exact List.pairwise_singleton ..
      · exact .nil
    · obtain ⟨i, path, hpath, -⟩ := get?_of_mem_locateAll p 0 cs y hy
      split at hx
      · rw [List.mem_singleton.1 hx, hpath]
        exact List.nil_lt_cons ..
      · cases hx

theorem pairwise_locateAll (p : Kind → Bool) (k : Nat) :
    (ts : List Tree) → (locateAll p k ts).Pairwise fun x y => x.1 < y.1
  | [] => .nil
  | t :: ts => by
    rw [locateAll, List.pairwise_append, List.pairwise_map]
    refine ⟨(pairwise_locate p t).imp fun h => List.cons_lt_cons_iff.2 (.inr ⟨rfl, h⟩),
      pairwise_locateAll p (k + 1) ts, fun x hx y hy => ?_⟩
    obtain ⟨x, -, rfl⟩ := List.mem_map.1 hx
    obtain ⟨i, path, hpath, -⟩ := get?_of_mem_locateAll p (k + 1) ts y hy
    rw [hpath]
    exact List.cons_lt_cons_iff.2 (.inl (by omega))

end

/-! ## All nodes -/

/-- All nodes in pre-order, with their paths. -/
def spots (t : Tree) : List (Path × Tree) := t.locate fun _ => true

variable (t : Tree)

theorem map_snd_spots : t.spots.map (·.2) = t.walk := by
  rw [spots, map_snd_locate, List.filter_true]

theorem length_spots : t.spots.length = t.walk.length := by
  rw [← map_snd_spots, List.length_map]

theorem mem_spots_iff {t : Tree} {path : Path} {u : Tree} :
    (path, u) ∈ t.spots ↔ t.get? path = some u :=
  ⟨fun h => get?_of_mem_locate _ t _ h, fun h => mem_locate_of_get? _ t path u h rfl⟩

/-- The paths of all nodes in pre-order. -/
def paths (t : Tree) : List Path := t.spots.map (·.1)

theorem mem_paths_iff {t : Tree} {path : Path} : path ∈ t.paths ↔ ∃ u, t.get? path = some u := by
  constructor
  · intro h
    obtain ⟨x, hx, rfl⟩ := List.mem_map.1 h
    exact ⟨x.2, mem_spots_iff.1 hx⟩
  · rintro ⟨u, hu⟩
    exact List.mem_map_of_mem (mem_spots_iff.2 hu)

theorem mem_paths_of_concat {t : Tree} {path : Path} {i : Nat} (h : path ++ [i] ∈ t.paths) :
    path ∈ t.paths := by
  obtain ⟨c, hc⟩ := mem_paths_iff.1 h
  rw [get?_concat] at hc
  obtain ⟨u, hu, -⟩ := Option.bind_eq_some_iff.1 hc
  exact mem_paths_iff.2 ⟨u, hu⟩

theorem pairwise_paths : t.paths.Pairwise (· < ·) := List.pairwise_map.2 (pairwise_locate _ t)

theorem nodup_paths : t.paths.Nodup := by
  refine (pairwise_paths t).imp fun {path other} h => ?_
  rintro rfl
  exact List.lt_irrefl _ h

/-! ## Equality -/

mutual

/-- Trees with equal labels at all paths are equal. -/
theorem ext_get? : (a b : Tree) →
    (∀ path, (a.get? path).map label = (b.get? path).map label) → a = b
  | node l cs, node m ds, h => by
    have hl : l = m := Option.some.inj (h [])
    have hchildren (i : Nat) (path : Path) :
        (cs[i]?.bind (get? path)).map label = (ds[i]?.bind (get? path)).map label := by
      rw [← get?_cons l, ← get?_cons m]
      exact h (i :: path)
    rw [hl, ext_getAll? cs ds hchildren]

theorem ext_getAll? : (as bs : List Tree) →
    (∀ (i : Nat) (path : Path),
      (as[i]?.bind (get? path)).map label = (bs[i]?.bind (get? path)).map label) → as = bs
  | [], [], _ => rfl
  | [], b :: _, h => by cases h 0 []
  | a :: _, [], h => by cases h 0 []
  | a :: as, b :: bs, h => by
    rw [ext_get? a b fun path => h 0 path, ext_getAll? as bs fun i path => h (i + 1) path]

end


end SqlScript.Tree
