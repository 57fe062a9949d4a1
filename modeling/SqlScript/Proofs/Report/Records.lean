import Mathlib.Data.List.Forall2
import SqlScript.Proofs.Tree.Traversal
import SqlScript.Report.Json

/-!
Trees as records that name each other by addresses. A node's record is complete once its turn is over,
since a later turn writes to the record on top of the stack and to new ones only.
-/

namespace SqlScript.Tree

/-! ## One turn -/

variable {entries : Array Entry}

theorem size_adopt (a : Nat) (entries : Array Entry) (c : Tree) :
    (adopt a entries c).size = entries.size + 1 := by
  rw [adopt, Array.size_push, Array.size_modify]

theorem size_adoptAll (a : Nat) (cs : List Tree) (entries : Array Entry) :
    (cs.foldl (adopt a) entries).size = entries.size + cs.length := by
  induction cs generalizing entries with
  | nil => rfl
  | cons c cs ih =>
    rw [List.foldl_cons, ih, size_adopt, List.length_cons]
    omega

theorem adoptAll_other {a j : Nat} (cs : List Tree) (hj : j < entries.size) (hne : j ≠ a) :
    (cs.foldl (adopt a) entries)[j]? = entries[j]? := by
  induction cs generalizing entries with
  | nil => rfl
  | cons c cs ih =>
    rw [List.foldl_cons, ih (by rw [size_adopt]; omega), adopt, Array.getElem?_push, Array.size_modify,
      if_neg (by omega), Array.getElem?_modify, if_neg (Ne.symm hne)]

/-- The parent gets the addresses from the end of the records on. -/
theorem adoptAll_parent {a : Nat} {l : Label} {as : List Nat} (cs : List Tree)
    (ha : entries[a]? = some ⟨l, as⟩) :
    (cs.foldl (adopt a) entries)[a]? = some ⟨l, as ++ List.range' entries.size cs.length⟩ := by
  induction cs generalizing entries as with
  | nil => rw [List.foldl_nil, ha, List.length_nil, List.range'_zero, List.append_nil]
  | cons c cs ih =>
    have hlt : a < entries.size := (Array.getElem?_eq_some_iff.1 ha).1
    have hnext : (adopt a entries c)[a]? = some ⟨l, as ++ [entries.size]⟩ := by
      rw [adopt, Array.getElem?_push, Array.size_modify, if_neg (by omega), Array.getElem?_modify,
        if_pos rfl, ha]
      rfl
    rw [List.foldl_cons, ih hnext, size_adopt, List.append_assoc]
    rfl

theorem adoptAll_child {a i : Nat} {c : Tree} {cs : List Tree} (ha : a < entries.size)
    (hc : cs[i]? = some c) :
    (cs.foldl (adopt a) entries)[entries.size + i]? = some ⟨c.label, []⟩ := by
  induction cs generalizing entries i with
  | nil => cases hc
  | cons d cs ih =>
    have hsize := size_adopt a entries d
    rw [List.foldl_cons]
    cases i with
    | zero =>
      rw [Nat.add_zero, adoptAll_other cs (by omega) (by omega), adopt, Array.getElem?_push,
        Array.size_modify, if_pos rfl, Option.some.inj hc]
    | succ i =>
      have ha' : a < (adopt a entries d).size := by omega
      have hlater := ih ha' hc
      rwa [hsize, Nat.add_right_comm, Nat.add_assoc] at hlater

/-! ## All turns -/

/-- Every tree on the stack has a record of its own, without children so far. -/
structure Fresh (entries : Array Entry) (stack : List (Tree × Nat)) : Prop where
  bare : ∀ y ∈ stack, entries[y.2]? = some ⟨y.1.label, []⟩
  nodup : (stack.map (·.2)).Nodup

namespace Fresh

variable {stack : List (Tree × Nat)}

theorem lt_size (h : Fresh entries stack) {y : Tree × Nat} (hy : y ∈ stack) : y.2 < entries.size :=
  (Array.getElem?_eq_some_iff.1 (h.bare y hy)).1

theorem not_mem_of_size_le (h : Fresh entries stack) {a : Nat} (ha : entries.size ≤ a) :
    a ∉ stack.map (·.2) := by
  intro hmem
  obtain ⟨y, hy, rfl⟩ := List.mem_map.1 hmem
  exact Nat.not_le.2 (h.lt_size hy) ha

theorem turn {t : Tree} {a : Nat} (h : Fresh entries ((t, a) :: stack)) :
    Fresh (t.children.foldl (adopt a) entries)
      ((t.children.zipIdx entries.size).reverse ++ stack) := by
  have ha : a < entries.size := h.lt_size (List.mem_cons_self ..)
  obtain ⟨hnot, hnodup⟩ := List.nodup_cons.1 h.nodup
  constructor
  · intro y hy
    rcases List.mem_append.1 hy with hy | hy
    · obtain ⟨hle, hchild⟩ := List.mk_mem_zipIdx_iff_le_and_getElem?_sub.1 (List.mem_reverse.1 hy)
      rw [← Nat.add_sub_cancel' hle]
      exact adoptAll_child ha hchild
    · have hmem := List.mem_cons_of_mem (t, a) hy
      have hne : y.2 ≠ a := fun e => hnot (e ▸ List.mem_map_of_mem (f := (·.2)) hy)
      rw [adoptAll_other _ (h.lt_size hmem) hne, h.bare y hmem]
  · rw [List.map_append, List.map_reverse, List.zipIdx_map_snd]
    refine List.nodup_append.2 ⟨(List.reverse_perm _).nodup_iff.2 List.nodup_range', hnodup, ?_⟩
    rintro j hj _ hstack rfl
    have hle := (List.mem_range'_1.1 (List.mem_reverse.1 hj)).1
    exact h.not_mem_of_size_le hle (List.mem_cons_of_mem _ hstack)

end Fresh

/-- The record at an address and those it leads to are those of a tree. -/
inductive Holds (entries : Array Entry) : Nat → Tree → Prop
  | node {a : Nat} {l : Label} {as : List Nat} {cs : List Tree} (here : entries[a]? = some ⟨l, as⟩)
      (below : List.Forall₂ (Holds entries) as cs) : Holds entries a (.node l cs)

theorem holds_children {filled : Array Entry} {cs : List Tree} {n : Nat}
    (h : ∀ y ∈ cs.zipIdx n, Holds filled y.2 y.1) :
    List.Forall₂ (Holds filled) (List.range' n cs.length) cs := by
  have hpairs : List.Forall₂ (Holds filled) ((cs.zipIdx n).map (·.2)) ((cs.zipIdx n).map (·.1)) := by
    rwa [List.forall₂_map_left_iff, List.forall₂_map_right_iff, List.forall₂_same]
  rwa [List.zipIdx_map_snd, List.zipIdx_map_fst] at hpairs

/-- What becomes of records until the stack is empty: they hold all that was on it, and the others are
as they were. -/
structure Filled (entries : Array Entry) (stack : List (Tree × Nat)) (filled : Array Entry) :
    Prop where
  holds : ∀ y ∈ stack, Holds filled y.2 y.1
  others : ∀ a < entries.size, a ∉ stack.map (·.2) → filled[a]? = entries[a]?
  size : filled.size + stack.length = entries.size + sizeOn stack

theorem Filled.turn {t : Tree} {a : Nat} {stack : List (Tree × Nat)} {filled : Array Entry}
    (hfresh : Fresh entries ((t, a) :: stack))
    (h : Filled (t.children.foldl (adopt a) entries)
      ((t.children.zipIdx entries.size).reverse ++ stack) filled) :
    Filled entries ((t, a) :: stack) filled := by
  obtain ⟨l, cs⟩ := t
  rw [children_node] at h
  have ha : a < entries.size := hfresh.lt_size (List.mem_cons_self ..)
  have hsize := size_adoptAll a cs entries
  -- no child has an address that was there before
  have hothers {j : Nat} (hj : j < entries.size) (hstack : j ∉ stack.map (·.2)) :
      filled[j]? = (cs.foldl (adopt a) entries)[j]? := by
    refine h.others j (by omega) fun hmem => ?_
    rw [List.map_append, List.map_reverse, List.zipIdx_map_snd] at hmem
    rcases List.mem_append.1 hmem with hmem | hmem
    · have hle := (List.mem_range'_1.1 (List.mem_reverse.1 hmem)).1
      omega
    · exact hstack hmem
  refine ⟨List.forall_mem_cons.2 ⟨?_, fun y hy => h.holds y (List.mem_append_right _ hy)⟩, ?_, ?_⟩
  · have hnot : a ∉ stack.map (·.2) := (List.nodup_cons.1 hfresh.nodup).1
    have hhere : filled[a]? = some ⟨l, List.range' entries.size cs.length⟩ :=
      (hothers ha hnot).trans (adoptAll_parent cs (hfresh.bare _ (List.mem_cons_self ..)))
    exact .node hhere (holds_children fun y hy =>
      h.holds y (List.mem_append_left _ (List.mem_reverse.2 hy)))
  · intro j hj hmem
    obtain ⟨hne, hstack⟩ := not_or.1 (mt List.mem_cons.2 hmem)
    exact (hothers hj hstack).trans (adoptAll_other cs hj hne)
  · have hcount := h.size
    have hnodes := filling.sizeOn_pushed entries (node l cs) a stack
    rw [pushAll_eq] at hnodes
    simp only [filling, children_node] at hnodes
    rw [List.length_append, List.length_reverse, List.length_zipIdx] at hcount
    rw [List.length_cons]
    omega

theorem run_filling {stack : List (Tree × Nat)} (h : Fresh entries stack) :
    Filled entries stack (filling.run entries stack).2 := by
  induction entries, stack using Traversal.run.induct filling with
  | case1 entries =>
    rw [Traversal.run_nil]
    exact ⟨fun y hy => absurd hy List.not_mem_nil, fun a _ _ => rfl, rfl⟩
  | case2 entries t a stack now ih =>
    rw [pushAll_eq] at ih
    rw [Traversal.run_cons]
    exact .turn h (ih h.turn)

/-! ## Reading back -/

mutual

/-- The fields of every node, with those of its children in them. -/
def nested : Tree → Json
  | node l cs => l.json (nestedAll cs)

def nestedAll : List Tree → List Json
  | [] => []
  | t :: ts => nested t :: nestedAll ts

end

theorem nestedAll_eq_map (ts : List Tree) : nestedAll ts = ts.map nested := by
  induction ts with
  | nil => rfl
  | cons t ts ih => rw [nestedAll, ih, List.map_cons]

mutual

theorem readEntry_of_holds :
    (t : Tree) → {a depth : Nat} → Holds entries a t → t.size ≤ depth →
      readEntry entries depth a = some t.nested
  | node l cs, _, 0, _, hdepth => by
    rw [size] at hdepth
    omega
  | node l cs, _, depth + 1, .node here below, hdepth => by
    rw [size] at hdepth
    have hbelow := readEntries_of_holds cs below (Nat.le_of_lt_succ hdepth)
    simp only [readEntry, here, Option.bind_eq_bind, Option.bind_some, hbelow, nested]
    rfl

theorem readEntries_of_holds :
    (ts : List Tree) → {as : List Nat} → {depth : Nat} → List.Forall₂ (Holds entries) as ts →
      sizeAll ts ≤ depth → as.mapM (readEntry entries depth) = some (nestedAll ts)
  | [], _, _, .nil, _ => rfl
  | t :: ts, _, _, .cons first more, hdepth => by
    rw [sizeAll] at hdepth
    rw [List.mapM_cons, readEntry_of_holds t first (by omega),
      readEntries_of_holds ts more (by omega)]
    rfl

end

theorem json_eq_nested (t : Tree) : t.json = t.nested := by
  have hfresh : Fresh #[⟨t.label, []⟩] [(t, 0)] :=
    ⟨fun y hy => by rw [List.mem_singleton.1 hy]; rfl, List.pairwise_singleton ..⟩
  have hfilled := run_filling hfresh
  have hcount := hfilled.size
  have hsize : t.size ≤ t.entries.size := by
    have hroot : sizeOn [(t, 0)] = t.size := Nat.add_zero _
    have hone : #[(⟨t.label, []⟩ : Entry)].size = 1 := rfl
    rw [hroot, hone, List.length_singleton] at hcount
    rw [entries]
    omega
  have hread : readEntry t.entries t.entries.size 0 = some t.nested :=
    readEntry_of_holds t (hfilled.holds _ (List.mem_singleton_self _)) hsize
  rw [json, hread]
  rfl

/-- The records hold every node with its children in their order. -/
theorem json_eq (t : Tree) : t.json = t.label.json (t.children.map json) := by
  obtain ⟨l, cs⟩ := t
  simp only [nested, nestedAll_eq_map, label_node, children_node, funext json_eq_nested]

end SqlScript.Tree
