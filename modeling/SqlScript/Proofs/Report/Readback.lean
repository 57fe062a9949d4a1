import SqlScript.Proofs.Report.Outline

/-!
Outlines can be read back. A row opens with spaces, a connector and the name of its kind, and no text
behind them looks like these; the depths of the rows in pre-order give the shape of the tree.
-/

namespace SqlScript.Tree

/-- A list is cut where it first has something that does not pass. -/
theorem while_append {α : Type} {p : α → Bool} {xs ys : List α} (hxs : ∀ x ∈ xs, p x = true)
    (hys : ∀ y ∈ ys.head?, p y = false) :
    (xs ++ ys).takeWhile p = xs ∧ (xs ++ ys).dropWhile p = ys := by
  rw [List.takeWhile_append_of_pos hxs, List.dropWhile_append_of_pos hxs]
  cases ys with
  | nil => simp
  | cons y ys => simp [hys y rfl]

/-! ## What is read off a row -/

def margin (row : String) : Nat := (row.toList.takeWhile (· = ' ')).length

/-- The first letters of a row; spaces and the connector stand before them. -/
def letters (row : String) : String :=
  String.ofList ((row.toList.dropWhile (! ·.isAlpha)).takeWhile (·.isAlpha))

/-- Behind its spaces the row has the connector of last children. -/
def HangsLast (row : String) : Prop :=
  Joint.last.text.toList <+: row.toList.dropWhile (· = ' ')

section

variable (l : Label)

theorem Label.exists_line_eq :
    ∃ more, l.line.toList = l.kind.name.toList ++ more ∧ ∀ c ∈ more.head?, c.isAlpha = false := by
  rw [line, caption]
  by_cases htext : l.text = "" <;> by_cases hannotations : l.annotations = ""
  · exact ⟨[], by simp [htext, hannotations], by simp⟩
  · exact ⟨"  [".toList ++ (l.annotations.toList ++ "]".toList), by simp [htext, hannotations],
      by simp⟩
  · exact ⟨": ".toList ++ l.text.toList, by simp [htext, hannotations], by simp⟩
  · exact ⟨": ".toList ++ (l.text.toList ++ ("  [".toList ++ (l.annotations.toList ++ "]".toList))),
      by simp [htext, hannotations], by simp⟩

theorem Kind.isAlpha_of_mem_name (k : Kind) : ∀ c ∈ k.name.toList, c.isAlpha = true := by
  have hall : k.name.toList.all Char.isAlpha = true := by
    cases k <;> decide
  exact List.all_eq_true.1 hall

theorem Kind.exists_name_eq (k : Kind) : ∃ c cs, k.name.toList = c :: cs ∧ c.isAlpha = true := by
  cases k <;> exact ⟨_, _, rfl, rfl⟩

theorem Joint.not_isAlpha_of_mem_text (joint : Joint) :
    ∀ c ∈ joint.text.toList, (!c.isAlpha) = true := by
  have hall : joint.text.toList.all (fun c => !c.isAlpha) = true := by
    cases joint <;> decide
  exact List.all_eq_true.1 hall

variable (depth : Nat) (joint : Joint)

theorem toList_row :
    (row depth joint l).toList =
      List.replicate (2 * depth) ' ' ++ (joint.text.toList ++ l.line.toList) := by
  rw [row, indentation, Text.rule, String.toList_append, String.toList_append, String.toList_ofList,
    List.append_assoc]

theorem head?_joint_line : ∀ c ∈ (joint.text.toList ++ l.line.toList).head?, c ≠ ' ' := by
  obtain ⟨more, hline, -⟩ := l.exists_line_eq
  obtain ⟨c, cs, hname, hc⟩ := l.kind.exists_name_eq
  have hspace : c ≠ ' ' := by
    rintro rfl
    cases hc
  rw [hline, hname]
  cases joint <;> simp [Joint.text, hspace]

theorem while_row :
    (row depth joint l).toList.takeWhile (· = ' ') = List.replicate (2 * depth) ' ' ∧
      (row depth joint l).toList.dropWhile (· = ' ') = joint.text.toList ++ l.line.toList := by
  rw [toList_row]
  refine while_append (fun c hc => ?_) fun c hc => ?_
  · simpa using List.eq_of_mem_replicate hc
  · simpa using head?_joint_line l joint c hc

theorem margin_row : margin (row depth joint l) = 2 * depth := by
  rw [margin, (while_row l depth joint).1, List.length_replicate]

theorem letters_row : letters (row depth joint l) = l.kind.name := by
  obtain ⟨more, hline, hmore⟩ := l.exists_line_eq
  have hfront : ∀ c ∈ List.replicate (2 * depth) ' ' ++ joint.text.toList, (!c.isAlpha) = true := by
    intro c hc
    rcases List.mem_append.1 hc with hc | hc
    · rw [List.eq_of_mem_replicate hc]
      rfl
    · exact joint.not_isAlpha_of_mem_text c hc
  have hname : ∀ c ∈ l.line.toList.head?, (!c.isAlpha) = false := by
    obtain ⟨c, cs, hname, hc⟩ := l.kind.exists_name_eq
    rw [hline, hname]
    simp [hc]
  rw [letters, toList_row, ← List.append_assoc, (while_append hfront hname).2, hline,
    (while_append l.kind.isAlpha_of_mem_name hmore).1, String.ofList_toList]

theorem hangsLast_row_iff : HangsLast (row depth joint l) ↔ joint = .last := by
  rw [HangsLast, (while_row l depth joint).2]
  obtain ⟨more, hline, -⟩ := l.exists_line_eq
  cases joint with
  | root =>
    have hname : ¬ Joint.last.text.toList <+: l.line.toList := by
      rw [hline]
      obtain ⟨c, cs, hname, hc⟩ := l.kind.exists_name_eq
      rw [hname]
      rintro ⟨rest, hrest⟩
      injection hrest with hfirst
      rw [← hfirst] at hc
      cases hc
    simpa [Joint.text] using hname
  | middle => simp [Joint.text]
  | last => simp

end

/-! ## Shapes -/

/-- The tree without its texts, places and annotations. -/
def skeleton (t : Tree) : Tree := t.map fun l => .plain l.kind "" ⟨none, none⟩

/-- The trees of a list of kinds with depths: below a node stands what follows it and is deeper. -/
def forest : List (Nat × Kind) → List Tree
  | [] => []
  | (depth, kind) :: rows =>
    plain kind "" ⟨none, none⟩ (forest (rows.takeWhile (depth < ·.1))) ::
      forest (rows.dropWhile (depth < ·.1))
termination_by rows => rows.length
decreasing_by
  · exact Nat.lt_succ_of_le (List.takeWhile_prefix _).length_le
  · exact Nat.lt_succ_of_le (List.dropWhile_suffix _).length_le

/-- How far the row of a node is set in, and its kind, where the root is at a depth. -/
def rank (depth : Nat) (x : Path × Tree) : Nat × Kind := (2 * (depth + x.1.length), x.2.kind)

theorem rank_cons (depth i : Nat) (x : Path × Tree) :
    rank depth (i :: x.1, x.2) = rank (depth + 1) x := by
  rw [rank, rank, List.length_cons, Nat.add_right_comm, Nat.add_assoc]

theorem head?_locateAll (i : Nat) (ts : List Tree) :
    ∀ x ∈ (locateAll (fun _ => true) i ts).head?, x.1 = [i] := by
  rcases ts with _ | ⟨⟨l, cs⟩, ts⟩
  · simp [locateAll]
  · simp [locateAll, locate]

mutual

theorem forest_spots (depth : Nat) :
    (t : Tree) → ∀ rows : List (Nat × Kind), (∀ x ∈ rows.head?, x.1 ≤ 2 * depth) →
      forest (t.spots.map (rank depth) ++ rows) = t.skeleton :: forest rows
  | node l cs => by
    intro rows hrows
    have hbelow : ∀ x ∈ (locateAll (fun _ => true) 0 cs).map (rank depth),
        decide (2 * depth < x.1) = true := by
      intro x hx
      obtain ⟨y, hy, rfl⟩ := List.mem_map.1 hx
      obtain ⟨i, path, hpath, -⟩ := get?_of_mem_locateAll _ 0 cs y hy
      rw [rank, hpath, List.length_cons, decide_eq_true_eq]
      omega
    have hnext : ∀ x ∈ rows.head?, decide (2 * depth < x.1) = false := by
      intro x hx
      simpa using hrows x hx
    obtain ⟨htake, hdrop⟩ := while_append hbelow hnext
    have hspots : (node l cs).spots.map (rank depth) ++ rows =
        (2 * depth, l.kind) :: ((locateAll (fun _ => true) 0 cs).map (rank depth) ++ rows) := rfl
    rw [hspots, forest, htake, hdrop, forest_beside depth 0 cs, skeleton, map, mapAll_eq_map]
    rfl

theorem forest_beside (depth i : Nat) :
    (ts : List Tree) →
      forest ((locateAll (fun _ => true) i ts).map (rank depth)) = ts.map skeleton
  | [] => by rw [locateAll, List.map_nil, forest, List.map_nil]
  | t :: ts => by
    have hnext : ∀ x ∈ ((locateAll (fun _ => true) (i + 1) ts).map (rank depth)).head?,
        x.1 ≤ 2 * (depth + 1) := by
      intro x hx
      rw [List.head?_map] at hx
      obtain ⟨y, hy, rfl⟩ := Option.map_eq_some_iff.1 hx
      rw [rank, head?_locateAll (i + 1) ts y hy]
      exact Nat.le_refl _
    rw [locateAll, List.map_append, List.map_map]
    simp only [Function.comp_def, rank_cons]
    rw [← spots, forest_spots (depth + 1) t _ hnext, forest_beside depth (i + 1) ts, List.map_cons]

end

/-! ## Reading -/

/-- The tree that has rows with these margins and names. -/
def ofRows (rows : List (Nat × String)) : Option Tree := do
  match forest (← rows.mapM fun row => (Kind.ofName? row.2).map (row.1, ·)) with
  | [t] => some t
  | _ => none

theorem mapM_ofName? (spots : List (Path × Tree)) :
    (spots.map fun x => (2 * x.1.length, x.2.kind.name)).mapM
        (fun row => (Kind.ofName? row.2).map (row.1, ·)) = some (spots.map (rank 0)) := by
  induction spots with
  | nil => rfl
  | cons x spots ih =>
    rw [List.map_cons, List.mapM_cons, ih, Kind.ofName?_name, List.map_cons, rank, Nat.zero_add]
    rfl

theorem ofRows_spots (t : Tree) :
    ofRows (t.spots.map fun x => (2 * x.1.length, x.2.kind.name)) = some t.skeleton := by
  have hforest := forest_spots 0 t [] (by simp)
  rw [List.append_nil, forest] at hforest
  rw [ofRows, mapM_ofName?, Option.bind_eq_bind, Option.bind_some, hforest]

def LastChild (t : Tree) (path : Path) : Prop :=
  ∃ parent p i, path = parent ++ [i] ∧ t.get? parent = some p ∧ i + 1 = p.children.length

theorem jointAt_eq_last_iff {t : Tree} {path : Path} (h : path ∈ t.paths) :
    t.jointAt path = .last ↔ t.LastChild path := by
  obtain ⟨u, hu⟩ := mem_paths_iff.1 h
  rcases List.eq_nil_or_concat' path with rfl | ⟨parent, i, rfl⟩
  · simp [jointAt, LastChild]
  · rw [get?_concat] at hu
    obtain ⟨p, hp, hchild⟩ := Option.bind_eq_some_iff.1 hu
    rw [jointAt_concat hp (List.getElem?_eq_some_iff.1 hchild).1, Joint.ofChild]
    constructor
    · intro hlast
      refine ⟨parent, p, i, rfl, hp, ?_⟩
      by_contra hne
      rw [if_neg hne] at hlast
      cases hlast
    · rintro ⟨parent', p', i', hpath, hp', hlength⟩
      obtain ⟨rfl, hi⟩ := List.append_inj' hpath rfl
      obtain rfl := List.singleton_inj.1 hi
      obtain rfl := Option.some.inj (hp.symm.trans hp')
      rw [if_pos hlength]

def shape (t : Tree) : Kind × Nat := (t.kind, t.children.length)

theorem shape_skeleton (t : Tree) : t.skeleton.shape = t.shape := by
  rw [shape, skeleton, children_map, List.length_map, kind, label_map]
  rfl

theorem get?_skeleton (t : Tree) (path : Path) :
    t.skeleton.get? path = (t.get? path).map skeleton := get?_map _ path t

theorem map_shape_get? {t t' : Tree} (h : t'.skeleton = t.skeleton) (path : Path) :
    (t'.get? path).map shape = (t.get? path).map shape := by
  have hshape : shape ∘ skeleton = shape := funext shape_skeleton
  have hget : (t'.skeleton.get? path).map shape = (t.skeleton.get? path).map shape := by rw [h]
  rwa [get?_skeleton, get?_skeleton, Option.map_map, Option.map_map, hshape] at hget

section

variable {t : Tree} (h : ∀ u ∈ t.walk, u.label.SingleLine)
include h

theorem ofRows_outline :
    ofRows ((Text.lines (outline (some t))).map fun row => (margin row, letters row)) =
      some t.skeleton := by
  rw [lines_outline h, List.map_map, ← ofRows_spots]
  congr 2
  funext x
  rw [Function.comp_apply, rowAt, margin_row, letters_row, kind]

theorem hangsLast_outline :
    List.Forall₂ (fun row x => HangsLast row ↔ t.LastChild x.1) (Text.lines (outline (some t)))
      t.spots := by
  rw [lines_outline h, List.forall₂_map_left_iff, List.forall₂_same]
  intro x hx
  rw [rowAt, hangsLast_row_iff]
  exact jointAt_eq_last_iff (List.mem_map_of_mem hx)

/-- Spaces and first letters of the rows give the skeleton of the tree, and the connector of last
children stands before these and no others. So trees with one outline have one shape. -/
theorem outline_reads_back :
    ofRows ((Text.lines (outline (some t))).map fun row => (margin row, letters row)) =
        some t.skeleton ∧
      List.Forall₂ (fun row x => HangsLast row ↔ t.LastChild x.1) (Text.lines (outline (some t)))
        t.spots ∧
      ∀ t' : Tree, (∀ u ∈ t'.walk, u.label.SingleLine) → outline (some t') = outline (some t) →
        ∀ path, (t'.get? path).map (fun u => (u.kind, u.children.length)) =
          (t.get? path).map fun u => (u.kind, u.children.length) := by
  refine ⟨ofRows_outline h, hangsLast_outline h, fun t' h' houtline path => ?_⟩
  have hread := ofRows_outline h'
  rw [houtline, ofRows_outline h] at hread
  exact map_shape_get? (Option.some.inj hread).symm path

end

/-- Texts that look like connectors, names and annotations do not lead astray. -/
theorem outline_reads_back_lookalikes :
    let place : Place := ⟨some 1, some 1⟩
    let typed : Tree := node ⟨.identifier, "a", place, some "INT", none⟩ []
    let untyped : Tree := plain .identifier "a  [Type: INT]" place []
    let lookalike : Tree := plain .error "  └─ Error: b" place []
    let t : Tree := plain .selectStatement "" place
      [plain .selectList "" place [typed, lookalike], plain .error "├─ " place []]
    let t' : Tree := plain .selectStatement "" place
      [plain .selectList "" place [untyped, lookalike], plain .error "├─ " place []]
    t ≠ t' ∧ outline (some t') = outline (some t) ∧
      ofRows ((Text.lines (outline (some t'))).map fun row => (margin row, letters row)) =
        some t.skeleton ∧
      (t'.get? [0]).map (fun u => (u.kind, u.children.length)) = some (.selectList, 2) := by
  intro place typed untyped lookalike t t'
  have h : ∀ u ∈ t.walk, u.label.SingleLine := by decide
  have h' : ∀ u ∈ t'.walk, u.label.SingleLine := by decide
  have houtline : outline (some t') = outline (some t) := by decide +kernel
  have hread := outline_reads_back h
  refine ⟨by decide, houtline, houtline ▸ hread.1, (hread.2.2 t' h' houtline [0]).trans ?_⟩
  rfl

end SqlScript.Tree
