import Mathlib.Data.List.Forall2
import SqlScript.Proofs.Tree.Paths
import SqlScript.Tree.Traversal

/-!
Stacks against recursion. A traversal that pushes children from the last to the first comes to the
nodes in pre-order, whatever it keeps for them on the stack: `run_along` gives its result node by node
from what one turn does.
-/

namespace SqlScript.Tree

namespace Traversal

variable {σ π ω : Type} (v : Traversal σ π ω)

def andThen (first : List ω × σ) (later : σ → List ω × σ) : List ω × σ :=
  (first.1 ++ (later first.2).1, (later first.2).2)

theorem andThen_assoc (first : List ω × σ) (f g : σ → List ω × σ) :
    andThen (andThen first f) g = andThen first fun s => andThen (f s) g := by
  simp only [andThen, List.append_assoc]

theorem run_nil (s : σ) : v.run s [] = ([], s) := by rw [run]

theorem run_cons (s : σ) (t : Tree) (p : π) (stack : List (Tree × π)) :
    v.run s ((t, p) :: stack) =
      let now := v.turn s t p
      andThen (now.output, now.state) (v.run · (now.pushed.reverse ++ stack)) := by
  rw [run, pushAll_eq]
  rfl

/-- What lies lower on the stack waits until all above it is done. -/
theorem run_append (s : σ) (items stack : List (Tree × π)) :
    v.run s (items ++ stack) = andThen (v.run s items) (v.run · stack) := by
  induction s, items using run.induct v with
  | case1 s => simp only [List.nil_append, run_nil, andThen]
  | case2 s t p items now ih =>
    rw [pushAll_eq, List.append_assoc] at ih
    rw [List.cons_append, run_cons, run_cons, andThen_assoc]
    exact congrArg (andThen (now.output, now.state) fun _ => ·) ih

end Traversal

/-! ## Paths on the stack -/

def childrenAt (t : Tree) (path : Path) : List (Tree × Path) :=
  t.children.zipIdx.map fun (c, i) => (c, path ++ [i])

def locating : Traversal Unit Path (Path × Tree) where
  turn _ t path := ⟨[(path, t)], (), (childrenAt t path).reverse⟩
  pushed_perm _ t path := by
    rw [List.map_reverse, childrenAt, List.map_map]
    exact (List.reverse_perm _).trans (.of_eq (List.zipIdx_map_fst 0 t.children))

theorem run_locating_cons (t : Tree) (path : Path) (stack : List (Tree × Path)) :
    locating.run () ((t, path) :: stack) =
      Traversal.andThen ([(path, t)], ()) (locating.run · (childrenAt t path ++ stack)) := by
  rw [Traversal.run_cons]
  simp only [locating, List.reverse_reverse]

mutual

theorem run_locating (path : Path) :
    (t : Tree) →
      locating.run () [(t, path)] = (t.spots.map fun x => (path ++ x.1, x.2), ())
  | node l cs => by
    rw [run_locating_cons, List.append_nil, Traversal.andThen, childrenAt, children_node,
      run_locating_children path 0 cs, spots, locate]
    simp

theorem run_locating_children (path : Path) (k : Nat) :
    (ts : List Tree) →
      locating.run () ((ts.zipIdx k).map fun (c, i) => (c, path ++ [i])) =
        ((locateAll (fun _ => true) k ts).map fun x => (path ++ x.1, x.2), ())
  | [] => Traversal.run_nil ..
  | t :: ts => by
    rw [List.zipIdx_cons, List.map_cons, ← List.singleton_append, Traversal.run_append,
      run_locating (path ++ [k]) t, Traversal.andThen, run_locating_children path (k + 1) ts,
      locateAll, List.map_append, List.map_map]
    simp [spots, Function.comp_def]

end

/-! ## Turns in pre-order -/

/-- Two stacks hold the same tree; what one keeps for it goes with the path that the other keeps. -/
def Kept {π : Type} (P : Path → π → Prop) (y : Tree × π) (z : Tree × Path) : Prop :=
  y.1 = z.1 ∧ P z.2 y.2

section

variable {π : Type} {P : Path → π → Prop}

theorem kept_children (keep : Nat → π) (u : Tree) {path : Path}
    (h : ∀ i c, u.children[i]? = some c → P (path ++ [i]) (keep i)) :
    List.Forall₂ (Kept P) (u.children.zipIdx.map fun (c, i) => (c, keep i)) (childrenAt u path) := by
  rw [childrenAt, List.forall₂_map_left_iff, List.forall₂_map_right_iff, List.forall₂_same]
  exact fun y hy => ⟨rfl, h y.2 y.1 (List.mem_zipIdx_iff_getElem?.1 hy)⟩

theorem kept_children_const (p : π) (u : Tree) {path : Path}
    (h : ∀ i c, u.children[i]? = some c → P (path ++ [i]) p) :
    List.Forall₂ (Kept P) (u.children.map (·, p)) (childrenAt u path) := by
  have hkept := kept_children (fun _ => p) u h
  rwa [← List.zipIdx_map_fst 0 u.children, List.map_map]

end

namespace Traversal

variable {σ π ω : Type}

/-- `S` holds of the state before the turn of each number and `P` of what is kept for each path, and
the turn of a node puts out `out` of it. -/
def Along (v : Traversal σ π ω) (root : Tree) (S : Nat → σ → Prop) (P : Path → π → Prop)
    (out : Nat → Path × Tree → List ω) : Prop :=
  ∀ n path u s p, root.spots[n]? = some (path, u) → S n s → P path p →
    let now := v.turn s u p
    now.output = out n (path, u) ∧ S (n + 1) now.state ∧
      List.Forall₂ (Kept P) now.pushed.reverse (childrenAt u path)

variable {v : Traversal σ π ω} {root : Tree} {S : Nat → σ → Prop} {P : Path → π → Prop}
  {out : Nat → Path × Tree → List ω}

/-- The nodes that are done and those that the stack still leads to are all nodes, in their order. -/
theorem Along.run (h : v.Along root S P out) {stack : List (Tree × π)} (paths : List (Tree × Path))
    (hstack : List.Forall₂ (Kept P) stack paths) (done : List (Path × Tree)) {s : σ}
    (hdone : done ++ (locating.run () paths).1 = root.spots) (hs : S done.length s) :
    (v.run s stack).1 =
        ((locating.run () paths).1.zipIdx done.length).flatMap (fun x => out x.2 x.1) ∧
      S root.spots.length (v.run s stack).2 := by
  induction s, stack using run.induct v generalizing paths done with
  | case1 s =>
    cases hstack
    rw [run_nil, List.append_nil] at hdone
    simpa [run_nil, hdone] using hs
  | case2 s u p stack now ih =>
    cases hstack with
    | @cons _ z _ paths hz hstack =>
    obtain ⟨u', path⟩ := z
    obtain ⟨rfl, hp⟩ := hz
    rw [run_locating_cons, andThen, List.singleton_append] at hdone ⊢
    have hspot : root.spots[done.length]? = some (path, u) := by
      rw [← hdone, List.getElem?_append_right (Nat.le_refl _), Nat.sub_self, List.getElem?_cons_zero]
    obtain ⟨hout, hstate, hpushed⟩ := h _ _ _ _ _ hspot hs hp
    have hlength : (done ++ [(path, u)]).length = done.length + 1 := List.length_append
    rw [pushAll_eq] at ih
    obtain ⟨hlater, hend⟩ := ih (childrenAt u path ++ paths) (List.rel_append hpushed hstack)
      (done ++ [(path, u)]) (by rw [List.append_assoc]; exact hdone) (hlength ▸ hstate)
    rw [hlength] at hlater
    rw [run_cons, andThen, List.zipIdx_cons, List.flatMap_cons]
    exact ⟨congrArg₂ (· ++ ·) hout hlater, hend⟩

/-- What a traversal puts out for a tree, and the state that it leaves. -/
theorem Along.run_root (h : v.Along root S P out) {s : σ} {p : π} (hs : S 0 s) (hp : P [] p) :
    (v.run s [(root, p)]).1 = root.spots.zipIdx.flatMap (fun x => out x.2 x.1) ∧
      S root.spots.length (v.run s [(root, p)]).2 := by
  have hpaths : (locating.run () [(root, [])]).1 = root.spots := by
    rw [run_locating]
    exact List.map_id _
  have hkept : Kept P (root, p) (root, []) := ⟨rfl, hp⟩
  have hrun := h.run [(root, [])] (.cons hkept .nil) [] hpaths hs
  rwa [hpaths] at hrun

end Traversal

/-! ## Walking -/

theorem flatMap_zipIdx_singleton {α β : Type} (f : α → β) (xs : List α) :
    (xs.zipIdx.flatMap fun x => [f x.1]) = xs.map f := by
  conv => rhs; rw [← List.zipIdx_map_fst 0 xs, List.map_map]
  exact List.map_eq_flatMap.symm

theorem traverse_eq_walk (t : Tree) : t.traverse = t.walk := by
  have hturn : walking.Along t (fun _ _ => True) (fun _ _ => True) fun _ (x : Path × Tree) => [x.2] := by
    intro n path u s p hspot _ _
    refine ⟨rfl, trivial, ?_⟩
    simp only [walking, List.map_reverse, List.reverse_reverse]
    exact kept_children_const () u fun _ _ _ => trivial
  rw [traverse, (hturn.run_root trivial trivial).1, ← map_snd_spots]
  exact flatMap_zipIdx_singleton (fun x : Path × Tree => x.2) _

end SqlScript.Tree
