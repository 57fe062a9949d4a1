import SqlScript.Proofs.Check.Independence
import SqlScript.Proofs.Check.TrueParts
import SqlScript.Proofs.Grammar.Broken

/-!
The marks of failures stay without annotations. A check looks its statement's parts up by their
kinds, and what it writes goes to what it has found.
-/

namespace SqlScript.Check
open SqlScript.Grammar SqlScript.Phrase SqlScript.Tree

/-! ## What is written on slots -/

theorem getElem?_of_find? {t c : Tree} {kind : Kind} {i : Nat} (h : t.find? kind = some (i, c)) :
    t.children[i]? = some c := by
  rw [find?, Option.map_eq_some_iff] at h
  obtain ⟨⟨d, j⟩, hfind, heq⟩ := h
  cases heq
  exact List.mem_zipIdx_iff_getElem?.1 (List.mem_of_find?_eq_some hfind)

/-- Of the children of the node, only slots get marks. -/
def OnSlots (t : Tree) (f : Findings) : Prop :=
  ∀ i c, t.children[i]? = some c → c.kind.isSlot = false → into i f.marks = []

namespace OnSlots

variable {t : Tree} {f g : Findings}

theorem none : OnSlots t .none := fun _ _ _ _ => rfl

theorem report (place : Place) (message : String) : OnSlots t (.report place message) :=
  fun _ _ _ _ => rfl

theorem append (hf : OnSlots t f) (hg : OnSlots t g) : OnSlots t (f ++ g) := by
  intro i c hc hkind
  rw [Findings.marks_append, into_append, hf i c hc hkind, hg i c hc hkind, List.append_nil]

theorem under {c : Tree} {kind : Kind} {i : Nat} (h : t.find? kind = some (i, c))
    (hslot : kind.isSlot = true) (f : Findings) : OnSlots t (f.under i) := by
  intro j d hd hkind
  refine into_under_of_ne f ?_
  rintro rfl
  obtain rfl := Option.some.inj ((getElem?_of_find? h).symm.trans hd)
  rw [(mem_of_find? h).2, hslot] at hkind
  cases hkind

theorem create (catalog : Catalog) (t : Tree) : OnSlots t (Check.create catalog t).2 := by
  rw [Check.create]
  cases hname : t.find? .identifier with
  | none => exact report _ _
  | some x =>
    obtain ⟨i, name⟩ := x
    have hnamed := under hname rfl (.mark DataType.table (some name.text))
    dsimp only
    split
    · exact hnamed.append (report _ _)
    · cases hlist : t.find? .fieldList with
      | none => exact hnamed.append (report _ _)
      | some y => exact hnamed.append (under hlist rfl _)

theorem columnNames (table : Table) {kind : Kind} (hslot : kind.isSlot = true) (t : Tree) :
    OnSlots t (columnNames table kind t) := by
  rw [Check.columnNames]
  cases hlist : t.find? kind with
  | none => exact none
  | some x => exact under hlist hslot _

theorem whereFindings (table : Table) (t : Tree) : OnSlots t (whereFindings table t) := by
  rw [Check.whereFindings]
  cases hclause : t.find? .whereClause with
  | none => exact none
  | some x => exact under hclause rfl _

theorem insert (table : Table) (name t : Tree) : OnSlots t (insert table name t) := by
  rw [Check.insert]
  cases hlist : t.find? .valueList with
  | none => exact none
  | some x =>
    dsimp only
    split
    · exact report _ _
    · exact under hlist rfl _

theorem update (table : Table) (t : Tree) : OnSlots t (update table t) := by
  rw [Check.update]
  refine append ?_ (whereFindings table t)
  cases hlist : t.find? .assignmentList with
  | none => exact none
  | some x => exact under hlist rfl _

theorem withTable (catalog : Catalog) {check : Table → Tree → Findings}
    (h : ∀ table name, OnSlots t (check table name)) : OnSlots t (withTable catalog t check) := by
  rw [Check.withTable]
  cases hname : t.find? .identifier with
  | none => exact none
  | some x =>
    dsimp only
    split
    · exact (under hname rfl _).append (report _ _)
    · exact (under hname rfl _).append (h _ _)

theorem statement (catalog : Catalog) (t : Tree) : OnSlots t (statement catalog t) := by
  rw [Check.statement]
  split
  · exact withTable catalog fun table _ =>
      ((columnNames table rfl t).append (whereFindings table t)).append (columnNames table rfl t)
  · exact withTable catalog fun table name => insert table name t
  · exact withTable catalog fun table _ => update table t
  · exact withTable catalog fun table _ => whereFindings table t
  · exact none

end OnSlots

/-! ## Failures -/

/-- What a statement of a script is annotated with. -/
theorem exists_onSlots (whole catalog : Catalog) {ss : List Tree} {t : Tree}
    (h : t ∈ annotated whole catalog ss) :
    ∃ s ∈ ss, ∃ f, OnSlots s f ∧ t = annotate f.marks s := by
  induction ss generalizing catalog with
  | nil => cases h
  | cons s ss ih =>
    have hlater {catalog : Catalog} (h : t ∈ annotated whole catalog ss) :
        ∃ u ∈ s :: ss, ∃ f, OnSlots u f ∧ t = annotate f.marks u := by
      obtain ⟨u, hu, hf⟩ := ih catalog h
      exact ⟨u, List.mem_cons_of_mem _ hu, hf⟩
    rw [annotated] at h
    split at h <;> rcases List.mem_cons.1 h with rfl | h
    · exact ⟨s, List.mem_cons_self .., _, .create catalog s, rfl⟩
    · exact hlater h
    · exact ⟨s, List.mem_cons_self .., _, .statement whole s, rfl⟩
    · exact hlater h

theorem kinds_annotate (marks : List Mark) (t : Tree) :
    (annotate marks t).walk.map Tree.kind = t.walk.map Tree.kind := by
  have hbare (t : Tree) : (t.map bare).walk.map Tree.kind = t.walk.map Tree.kind := by
    rw [walk_map, List.map_map]
    exact List.map_congr_left fun u _ => kind_map (f := bare) (fun _ => rfl) u
  rw [← hbare, map_bare_annotate, hbare]

/-- A child of a statement that holds a failure is the mark of it, and stays as it is. -/
theorem silent_of_stated {s : Statement} {lead : Token} {parts : List Tree} {mark : Option Token}
    {t : Tree} (h : Stated s lead parts mark t) {f : Findings} (hf : OnSlots t f) {u : Tree}
    (hu : u ∈ (annotate f.marks t).walk) (hkind : u.kind = .error) : u.label.Silent := by
  obtain ⟨l, cs⟩ := t
  rw [walk_eq] at hu
  rcases List.mem_cons.1 hu with rfl | hu
  · rw [kind_annotate, kind_stated h] at hkind
    cases s <;> cases hkind
  · rw [annotate_node] at hu
    obtain ⟨d, hd, hud⟩ := List.mem_flatMap.1 hu
    obtain ⟨i, hi, rfl⟩ := List.mem_mapIdx.1 hd
    have hc : cs[i] ∈ (node l cs).children := List.getElem_mem hi
    rcases h.child _ hc with hpart | ⟨v, hv⟩
    · have hmem : u.kind ∈ (annotate (into i f.marks) cs[i]).walk.map Tree.kind :=
        List.mem_map_of_mem hud
      rw [kinds_annotate] at hmem
      obtain ⟨w, hw, hwkind⟩ := List.mem_map.1 hmem
      exact absurd (hwkind.trans hkind) (kind_ne_error_of_part hpart w hw)
    · have hslot : cs[i].kind.isSlot = false := by
        rw [hv]
        rfl
      rw [hf i _ (List.getElem?_eq_getElem hi) hslot, annotate_nil, hv] at hud
      rw [List.mem_singleton.1 hud]
      exact ⟨rfl, rfl⟩

/-- No check annotates the mark of a failure. -/
theorem silent_of_error {tokens : List Token} {limit : Int} {u : Tree}
    (hu : u ∈ (analyze (parse tokens limit).tree).tree.walk) (hkind : u.kind = .error) :
    u.label.Silent := by
  rw [(isScript_parse tokens limit).tree_analyze, walk_eq] at hu
  rcases List.mem_cons.1 hu with rfl | hu
  · cases hkind
  · obtain ⟨t, ht, hut⟩ := List.mem_flatMap.1 hu
    obtain ⟨s, hs, f, hf, rfl⟩ := exists_onSlots _ _ ht
    obtain ⟨st, lead, parts, mark, h⟩ := exists_stated hs
    exact silent_of_stated h hf hut hkind

end SqlScript.Check
