import SqlScript.Tree.Basic

/-!
Going through a tree with a stack in place of recursion. What is done with a node, what is kept for its
children and in which order they are pushed differ from one traversal to the next; that all children
are pushed and nothing else is what makes a traversal end.
-/

namespace SqlScript.Tree

/-- Pushes items one after the other, so that the last one comes out on top. -/
def pushAll {α : Type} (stack items : List α) : List α :=
  items.foldl (fun stack item => item :: stack) stack

/-- What is done with the node on top: what is put out, the state after it, and what is pushed. -/
structure Turn (σ π ω : Type) where
  output : List ω
  state : σ
  pushed : List (Tree × π)

structure Traversal (σ π ω : Type) where
  turn : σ → Tree → π → Turn σ π ω
  pushed_perm : ∀ s t p, ((turn s t p).pushed.map (·.1)).Perm t.children

theorem sizeAll_perm {ts us : List Tree} (h : ts.Perm us) : sizeAll ts = sizeAll us := by
  induction h with
  | nil => rfl
  | cons t _ ih => rw [sizeAll, sizeAll, ih]
  | swap t u ts => simp only [sizeAll, Nat.add_left_comm]
  | trans _ _ ih ih' => exact ih.trans ih'

theorem sizeAll_append (ts us : List Tree) : sizeAll (ts ++ us) = sizeAll ts + sizeAll us := by
  induction ts with
  | nil => exact (Nat.zero_add _).symm
  | cons t ts ih => rw [List.cons_append, sizeAll, sizeAll, ih, Nat.add_assoc]

theorem pushAll_eq {α : Type} (stack items : List α) :
    pushAll stack items = items.reverse ++ stack := by
  induction items generalizing stack with
  | nil => rfl
  | cons item items ih =>
    rw [pushAll, List.foldl_cons, ← pushAll, ih, List.reverse_cons, List.append_assoc,
      List.singleton_append]

/-- The number of nodes that are on a stack or below it. -/
def sizeOn {π : Type} (stack : List (Tree × π)) : Nat := sizeAll (stack.map (·.1))

namespace Traversal

variable {σ π ω : Type} (v : Traversal σ π ω)

theorem sizeOn_pushed (s : σ) (t : Tree) (p : π) (stack : List (Tree × π)) :
    sizeOn (pushAll stack (v.turn s t p).pushed) + 1 = sizeOn ((t, p) :: stack) := by
  obtain ⟨l, cs⟩ := t
  have hperm := sizeAll_perm (v.pushed_perm s (node l cs) p)
  rw [sizeOn, pushAll_eq, List.map_append, sizeAll_append, List.map_reverse,
    sizeAll_perm (List.reverse_perm _), hperm, sizeOn, List.map_cons, sizeAll, size, children_node]
  omega

/-- Takes the top of the stack until it is empty. -/
def run (s : σ) : List (Tree × π) → List ω × σ
  | [] => ([], s)
  | (t, p) :: stack =>
    let now := v.turn s t p
    let later := run now.state (pushAll stack now.pushed)
    (now.output ++ later.1, later.2)
termination_by stack => sizeOn stack
decreasing_by
  have hsize := v.sizeOn_pushed s t p stack
  omega

end Traversal

/-- Puts out every node; the children are pushed from the last to the first. -/
def walking : Traversal Unit Unit Tree where
  turn _ t _ := ⟨[t], (), t.children.reverse.map (·, ())⟩
  pushed_perm _ t _ := by simp [Function.comp_def, List.reverse_perm]

/-- The nodes in the order in which the stack brings them up. -/
def traverse (t : Tree) : List Tree := (walking.run () [(t, ())]).1

end SqlScript.Tree
