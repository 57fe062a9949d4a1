import Mathlib.Data.List.Perm.Basic
import SqlScript.Check.Finding
import SqlScript.Proofs.Tree.Map

/-!
Writing marks into a tree: those on its root change the label there, those below a child go on to
that child, and nothing else changes. So what is found in one part of a tree is written in that part
alone.
-/

namespace SqlScript.Check
open SqlScript.Tree

/-! ## Findings put together -/

namespace Findings

variable (a b c : Findings)

@[simp] theorem none_append : none ++ a = a := rfl

@[simp] theorem append_none : a ++ none = a := by
  obtain ⟨marks, diagnostics⟩ := a
  exact congrArg₂ Findings.mk (List.append_nil _) (List.append_nil _)

theorem append_assoc : a ++ b ++ c = a ++ (b ++ c) :=
  congrArg₂ Findings.mk (List.append_assoc ..) (List.append_assoc ..)

@[simp] theorem join_nil : join [] = none := rfl

@[simp] theorem join_cons (fs : List Findings) : join (a :: fs) = a ++ join fs := rfl

end Findings

/-! ## Marks on a node and below it -/

/-- The mark as one on child `i`, if its node lies there. -/
def Mark.into? (i : Nat) (m : Mark) : Option Mark :=
  match m.path with
  | [] => none
  | j :: path => if j = i then some { m with path := path } else none

/-- The marks on nodes of child `i`. -/
def into (i : Nat) (marks : List Mark) : List Mark := marks.filterMap (Mark.into? i)

def Mark.onLabel (l : Label) (m : Mark) : Label :=
  if m.path = [] then l.annotate (some m.dataType) m.symbolRef else l

/-- The label of a root after marks on its tree. -/
def labelled (marks : List Mark) (l : Label) : Label := marks.foldl Mark.onLabel l

section

variable (i j : Nat) (a b : List Mark) (f : Findings) (l : Label)

@[simp] theorem into_nil : into i [] = [] := rfl

@[simp] theorem into_append : into i (a ++ b) = into i a ++ into i b := by simp [into]

@[simp] theorem into_mark (dataType : String) (symbolRef : Option String) :
    into i (Findings.mark dataType symbolRef).marks = [] := rfl

@[simp] theorem into_report (place : Place) (message : String) :
    into i (Findings.report place message).marks = [] := rfl

@[simp] theorem into_none : into i Findings.none.marks = [] := rfl

theorem into_under :
    into i (f.under j).marks = if j = i then f.marks else [] := by
  have hinto (m : Mark) : Mark.into? i { m with path := j :: m.path } =
      if j = i then some m else none := rfl
  simp only [into, Findings.under, Findings.below, List.filterMap_map, Function.comp_def,
    List.singleton_append, hinto]
  split <;> simp

@[simp] theorem into_under_self : into i (f.under i).marks = f.marks := by
  rw [into_under, if_pos rfl]

theorem into_under_of_ne {i j : Nat} (f : Findings) (h : j ≠ i) :
    into i (f.under j).marks = [] := by
  rw [into_under, if_neg h]

@[simp] theorem into_join (fs : List Findings) :
    into i (Findings.join fs).marks = fs.flatMap fun f => into i f.marks := by
  rw [Findings.marks_join, into, List.filterMap_flatMap]
  rfl

@[simp] theorem labelled_nil : labelled [] l = l := rfl

@[simp] theorem labelled_append : labelled (a ++ b) l = labelled b (labelled a l) := by
  simp [labelled]

@[simp] theorem labelled_mark (dataType : String) (symbolRef : Option String) :
    labelled (Findings.mark dataType symbolRef).marks l =
      l.annotate (some dataType) symbolRef := rfl

@[simp] theorem labelled_report (place : Place) (message : String) :
    labelled (Findings.report place message).marks l = l := rfl

@[simp] theorem labelled_none : labelled Findings.none.marks l = l := rfl

@[simp] theorem labelled_under : labelled (f.under i).marks l = l := by
  have hall (marks : List Mark) :
      labelled (marks.map fun m => { m with path := i :: m.path }) l = l := by
    induction marks with
    | nil => rfl
    | cons m marks ih => simpa [labelled, Mark.onLabel] using ih
  exact hall f.marks

theorem labelled_join {fs : List Findings} (h : ∀ f ∈ fs, labelled f.marks l = l) :
    labelled (Findings.join fs).marks l = l := by
  rw [Findings.marks_join]
  induction fs with
  | nil => rfl
  | cons f fs ih =>
    rw [List.flatMap_cons, labelled_append, h f (List.mem_cons_self ..)]
    exact ih fun g hg => h g (List.mem_cons_of_mem _ hg)

theorem labelled_eq (l : Label) (marks : List Mark) :
    ∃ dataType symbolRef, labelled marks l = { l with dataType, symbolRef } := by
  induction marks generalizing l with
  | nil => exact ⟨_, _, rfl⟩
  | cons m marks ih =>
    obtain ⟨dataType, symbolRef, h⟩ := ih (Mark.onLabel l m)
    refine ⟨dataType, symbolRef, ?_⟩
    rw [labelled, List.foldl_cons, ← labelled, h, Mark.onLabel]
    split <;> rfl

end

/-! ## Annotated trees -/

@[simp] theorem annotate_nil (t : Tree) : annotate [] t = t := rfl

@[simp] theorem annotate_append (a b : List Mark) (t : Tree) :
    annotate (a ++ b) t = annotate b (annotate a t) := by
  simp [annotate]

theorem annotate_node (marks : List Mark) (l : Label) (cs : List Tree) :
    annotate marks (node l cs) =
      node (labelled marks l) (cs.mapIdx fun i c => annotate (into i marks) c) := by
  induction marks generalizing l cs with
  | nil => simp [List.mapIdx_eq_zipIdx_map]
  | cons m marks ih =>
    obtain ⟨path, dataType, symbolRef⟩ := m
    cases path with
    | nil => exact ih _ cs
    | cons j path =>
      -- what the first mark changes in child `j` comes before what the later ones do there
      rw [annotate, List.foldl_cons, ← annotate, Mark.write, Tree.update, ih]
      congr 1
      refine List.ext_getElem? fun i => ?_
      rw [List.getElem?_mapIdx, List.getElem?_mapIdx, List.getElem?_modify]
      by_cases hj : j = i
      · subst hj
        simp [into, Mark.into?, annotate, Mark.write, Function.comp_def]
      · simp [into, Mark.into?, hj]

theorem label_annotate (marks : List Mark) (t : Tree) :
    (annotate marks t).label = labelled marks t.label := by
  cases t
  rw [annotate_node]
  rfl

@[simp] theorem kind_annotate (marks : List Mark) (t : Tree) :
    (annotate marks t).kind = t.kind := by
  obtain ⟨dataType, symbolRef, h⟩ := labelled_eq t.label marks
  rw [kind, label_annotate, h]
  rfl

@[simp] theorem text_annotate (marks : List Mark) (t : Tree) :
    (annotate marks t).text = t.text := by
  obtain ⟨dataType, symbolRef, h⟩ := labelled_eq t.label marks
  rw [text, label_annotate, h]
  rfl

/-- The label without its marks. -/
def bare (l : Label) : Label := { l with dataType := none, symbolRef := none }

/-- Marks are all that is new. -/
theorem map_bare_annotate (marks : List Mark) (t : Tree) :
    (annotate marks t).map bare = t.map bare := by
  have hwrite (m : Mark) (path : Path) (t : Tree) :
      (Tree.update (relabel fun l => l.annotate (some m.dataType) m.symbolRef) path t).map bare =
        t.map bare := by
    induction path generalizing t with
    | nil =>
      cases t
      rfl
    | cons i path ih =>
      obtain ⟨l, cs⟩ := t
      rw [Tree.update, map, map, mapAll_eq_map, mapAll_eq_map]
      congr 1
      refine List.ext_getElem? fun j => ?_
      rw [List.getElem?_map, List.getElem?_modify, List.getElem?_map]
      split <;> simp [Function.comp_def, ih]
  induction marks generalizing t with
  | nil => rfl
  | cons m marks ih =>
    rw [annotate, List.foldl_cons, ← annotate, ih]
    exact hwrite m m.path t

/-- The leaves stand where they stood. -/
theorem places_annotate (marks : List Mark) (t : Tree) :
    (annotate marks t).lexical.map place = t.lexical.map place := by
  have hkind (l : Label) : (bare l).kind = l.kind := rfl
  have hbare (t : Tree) : (t.map bare).lexical.map place = t.lexical.map place := by
    rw [lexical_map hkind, List.map_map]
    refine List.map_congr_left fun u _ => ?_
    rw [Function.comp_apply, place, label_map]
    rfl
  rw [← hbare, map_bare_annotate, hbare]

/-! ## Checks of children -/

/-- What `check` finds in the children of a kind. -/
def onChildren (kind : Kind) (check : Tree → Findings) (t : Tree) : Findings :=
  .join ((t.findAll kind).map fun (i, c) => (check c).under i)

/-- Checks, each for the children of one kind. -/
abbrev Checks := List (Kind × (Tree → Findings))

namespace Checks

variable (checks : Checks)

/-- What the checks find in the children of a node. -/
def on (t : Tree) : Findings :=
  .join (checks.map fun (kind, check) => onChildren kind check t)

/-- What the checks find in one child. -/
def inChild (c : Tree) : Findings :=
  .join ((checks.filter (·.1 == c.kind)).map fun (_, check) => check c)

end Checks

section

variable {α β : Type}

theorem flatMap_filter_eq (p : α → Bool) (f : α → List β) (l : List α) :
    (l.filter p).flatMap f = l.flatMap fun a => if p a then f a else [] := by
  induction l with
  | nil => rfl
  | cons a l ih =>
    rw [List.filter_cons, List.flatMap_cons, ← ih]
    split
    · rw [List.flatMap_cons]
    · rfl

theorem flatMap_zipIdx_eq (f : α → List β) (l : List α) (i k : Nat) :
    (l.zipIdx k).flatMap (fun x => if x.2 = i + k then f x.1 else []) = (l[i]?).elim [] f := by
  induction l generalizing i k with
  | nil => rfl
  | cons a l ih =>
    rw [List.zipIdx_cons, List.flatMap_cons]
    cases i with
    | zero =>
      have hnone :
          (l.zipIdx (k + 1)).flatMap (fun x => if x.2 = 0 + k then f x.1 else []) = [] := by
        rw [List.flatMap_eq_nil_iff]
        intro x hx
        have := (List.mem_zipIdx hx).1
        exact if_neg (by omega)
      rw [hnone, List.append_nil, if_pos (by omega)]
      rfl
    | succ i =>
      have hstep : i + 1 + k = i + (k + 1) := by omega
      rw [if_neg (by simp), List.nil_append, List.getElem?_cons_succ, ← ih i (k + 1), hstep]

/-- Gathering first along one list and then along the other gives the same in another order. -/
theorem flatMap_flatMap_perm {γ : Type} (l : List α) (m : List β) (f : α → β → List γ) :
    (l.flatMap fun a => m.flatMap (f a)).Perm (m.flatMap fun b => l.flatMap fun a => f a b) := by
  induction m with
  | nil => simp
  | cons b m ih =>
    simp only [List.flatMap_cons]
    exact (List.flatMap_append_perm l _ _).symm.trans (ih.append_left _)

end

section

variable {l : Label} {cs : List Tree} {i : Nat} {c : Tree}

theorem into_onChildren (hc : cs[i]? = some c) (kind : Kind) (check : Tree → Findings) :
    into i (onChildren kind check (node l cs)).marks =
      if kind == c.kind then (check c).marks else [] := by
  have hall : into i (onChildren kind check (node l cs)).marks =
      (cs.zipIdx 0).flatMap fun x =>
        if x.2 = i + 0 then (if kind == x.1.kind then (check x.1).marks else []) else [] := by
    rw [onChildren, into_join, findAll, List.map_map, List.flatMap_map, flatMap_filter_eq]
    refine congrArg (List.flatMap · _) (funext fun x => ?_)
    simp only [Function.comp_apply, into_under, Nat.add_zero, BEq.comm (a := kind)]
    by_cases hi : x.2 = i <;> simp [hi]
  rw [hall, flatMap_zipIdx_eq (fun c => if kind == c.kind then (check c).marks else []), hc]
  rfl

theorem labelled_onChildren (kind : Kind) (check : Tree → Findings) (t : Tree) (l : Label) :
    labelled (onChildren kind check t).marks l = l := by
  refine labelled_join l fun f hf => ?_
  obtain ⟨x, -, rfl⟩ := List.mem_map.1 hf
  exact labelled_under ..

/-- The marks on the children of a node are written on each child alone. -/
theorem annotate_checks (checks : Checks) (l : Label) (cs : List Tree) :
    annotate (checks.on (node l cs)).marks (node l cs) =
      node l (cs.map fun c => annotate (checks.inChild c).marks c) := by
  have hlabel : labelled (checks.on (node l cs)).marks l = l := by
    refine labelled_join l fun f hf => ?_
    obtain ⟨x, -, rfl⟩ := List.mem_map.1 hf
    exact labelled_onChildren ..
  rw [annotate_node, hlabel]
  congr 1
  refine List.ext_getElem? fun i => ?_
  rw [List.getElem?_mapIdx, List.getElem?_map]
  cases hc : cs[i]? with
  | none => rfl
  | some c =>
    have hinto : into i (checks.on (node l cs)).marks = (checks.inChild c).marks := by
      rw [Checks.on, into_join, Checks.inChild, Findings.marks_join]
      simp only [List.flatMap_map, into_onChildren hc, flatMap_filter_eq]
    rw [Option.map_some, Option.map_some, hinto]

/-- Where there is one child of a kind at most, it is the first that is checked. -/
theorem onChildren_eq {kind : Kind} {t : Tree}
    (h : (t.children.filter (·.kind == kind)).length ≤ 1) (check : Tree → Findings) :
    onChildren kind check t =
      match t.find? kind with
      | none => .none
      | some (i, c) => (check c).under i := by
  have hlength : (t.children.zipIdx.filter fun c => c.1.kind == kind).length ≤ 1 := by
    rw [← map_snd_findAll, findAll, List.length_map, List.length_map] at h
    exact h
  rw [onChildren, findAll, find?, ← List.head?_filter]
  revert hlength
  cases t.children.zipIdx.filter fun c => c.1.kind == kind with
  | nil => exact fun _ => rfl
  | cons x xs =>
    intro hlength
    have hnil : xs = [] := by simpa using hlength
    subst hnil
    exact Findings.append_none _

theorem diagnostics_onChildren (kind : Kind) (check : Tree → Findings) (t : Tree) :
    (onChildren kind check t).diagnostics =
      (t.children.filter (·.kind == kind)).flatMap fun c => (check c).diagnostics := by
  rw [onChildren, Findings.diagnostics_join, ← map_snd_findAll, List.flatMap_map, List.flatMap_map]
  rfl

/-- The checks go from kind to kind, so the diagnostics may come in another order. -/
theorem diagnostics_checks_perm (checks : Checks) (t : Tree) :
    (checks.on t).diagnostics.Perm
      (t.children.flatMap fun c => (checks.inChild c).diagnostics) := by
  simp only [Checks.on, Checks.inChild, Findings.diagnostics_join, List.flatMap_map,
    diagnostics_onChildren, flatMap_filter_eq, BEq.comm (b := Tree.kind _)]
  exact flatMap_flatMap_perm ..

end

end SqlScript.Check
