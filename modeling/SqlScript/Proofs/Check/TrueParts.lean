import SqlScript.Proofs.Check.Truth
import SqlScript.Proofs.Check.Walk

/-!
The marks on SELECT, UPDATE and DELETE statements: the name of the table, and over its columns the
lists of names, conditions and assignments, tell the truth and call for what is reported. Where the
table is missing its name alone is marked.
-/

namespace SqlScript.Check
open SqlScript.Text SqlScript.Grammar SqlScript.Phrase SqlScript.Tree

/-! ## What marks should say -/

/-- An item of a list of assignments. The target is marked, its value only if the target is a
column. -/
inductive TrueItem (table : Table) : Tree → Prop where
  | assignment {l : Label} {target sign value : Tree} (hkind : l.kind = .assignment)
      (hl : l.Silent) (hname : target.kind = .identifier) (htarget : AllTruthful table target)
      (hsign : sign.Unmarked)
      (hcolumn : (∃ c ∈ table.columns, lower c.name = lower target.text) → AllTruthful table value)
      (hnone : (∀ c ∈ table.columns, lower c.name ≠ lower target.text) → value.Unmarked) :
      TrueItem table (node l [target, sign, value])
  | comma {t : Tree} (hkind : t.kind = .delimiter) (ht : t.Unmarked) : TrueItem table t

/-- A child of a statement over a table that is known. -/
inductive TruePart (table : Table) (t : Tree) : Prop where
  | name (hkind : t.kind = .identifier) (htype : t.label.dataType = some DataType.table)
      (href : t.label.symbolRef = some table.name)
  | clause (hkind : t.kind ∈ [.selectList, .whereClause, .orderClause]) (ht : AllTruthful table t)
  | assignments (hkind : t.kind = .assignmentList) (hl : t.label.Silent)
      (ht : ∀ c ∈ t.children, TrueItem table c)
  | other (hkind : t.kind.isSlot = false) (ht : t.Unmarked)

/-- A child of a statement over a table that is missing. -/
inductive MissingPart (t : Tree) : Prop where
  | name (hkind : t.kind = .identifier) (htype : t.label.dataType = some DataType.unknown)
      (href : t.label.symbolRef = none)
  | other (hkind : t.kind ≠ .identifier) (ht : t.Unmarked)

/-- With the marks that are found the tree is as it should be, and they call for the diagnostics. -/
structure Sound (say : Tree → Diagnostic) (P : Tree → Prop) (f : Findings) (t : Tree) : Prop where
  marks : P (annotate f.marks t)
  accounted : Accounted say f.diagnostics [annotate f.marks t]

section

variable {say : Tree → Diagnostic} {P : Tree → Prop} {table : Table}

theorem Sound.on {checks : Checks} {l : Label} (hl : l.kind.isLexical = false) {cs : List Tree}
    (h : ∀ c ∈ cs, Sound say P (checks.inChild c) c) :
    Sound say (fun t => t.label = l ∧ ∀ c ∈ t.children, P c) (checks.on (node l cs))
      (node l cs) := by
  constructor
  · rw [annotate_checks]
    exact ⟨rfl, List.forall_mem_map.2 fun c hc => (h c hc).marks⟩
  · have hcs := Accounted.flatMap fun c hc => (h c hc).accounted
    rw [annotate_checks]
    exact (hcs.perm (diagnostics_checks_perm checks (node l cs)).symm).node hl

theorem unmarked_leaf (kind : Kind) (t : Token) : (leaf kind t).Unmarked := by
  intro u hu
  rw [List.mem_singleton.1 hu]
  exact ⟨rfl, rfl⟩

theorem Accounted.unmarked {t : Tree} (h : t.Unmarked) : Accounted say [] [t] := by
  have hnone : unknowns t = [] := by
    refine List.filter_eq_nil_iff.2 fun u hu hunknown => ?_
    have htype : u.label.dataType = some DataType.unknown := by
      simpa using (Bool.and_eq_true_iff.1 hunknown).2
    rw [(h u hu).1] at htype
    cases htype
  refine ⟨?_, by simp⟩
  rw [List.flatMap_singleton, hnone]
  rfl

theorem Sound.unmarked {t : Tree} (hP : P t) (h : t.Unmarked) : Sound say P .none t :=
  ⟨hP, .unmarked h⟩

theorem Told.sound {f : Findings} {t : Tree} (h : Told table f.diagnostics [annotate f.marks t]) :
    Sound (sayColumn table) (AllTruthful table) f t :=
  ⟨h.truthful _ (List.mem_singleton_self _), h.accounted⟩

theorem truthful_plain {kind : Kind} {text : String} {place : Place}
    (hkind : kind ∉ [.identifier, .condition, .number, .string, .booleanLiteral])
    (hnull : kind = .keyword → upper text ≠ "NULL") : Truthful table (.plain kind text place) :=
  .silent hkind hnull ⟨rfl, rfl⟩

/-! ## Lists of names -/

/-- A leaf without a mark that needs none. -/
def Mute (t : Tree) : Prop :=
  ∃ kind u, t = leaf kind u ∧
    kind ∉ [.identifier, .condition, .number, .string, .booleanLiteral] ∧
    (kind = .keyword → upper u.lexeme ≠ "NULL")

theorem Told.mute {t : Tree} (h : Mute t) : Told table [] [t] := by
  obtain ⟨kind, u, rfl, hkind, hnull⟩ := h
  refine .quiet (truthful_plain hkind hnull) ?_
  simp [Label.isUnknown, Label.plain]

theorem mute_keyword {word : String} (t : Keyword word) (hword : word ≠ "NULL") :
    Mute (leaf .keyword t.1) := by
  refine ⟨.keyword, t.1, rfl, by decide, fun _ => ?_⟩
  have hupper : upper t.1.lexeme = word := by simpa using (Bool.and_eq_true_iff.1 t.2).2
  rwa [hupper]

theorem mute_direction (t : { t : Token // isDirection t }) : Mute (leaf .keyword t.1) := by
  rcases Bool.or_eq_true_iff.1 t.2 with h | h
  · exact mute_keyword ⟨t.1, h⟩ (by decide)
  · exact mute_keyword ⟨t.1, h⟩ (by decide)

/-- What is checked of a list of names, and of the name in an ORDER BY. -/
def nameChecks (table : Table) : Checks :=
  [(.identifier, fun name => (columnTyping table name.label).findings)]

theorem inChild_name (t : Token) :
    (nameChecks table).inChild (leaf .identifier t) =
      (columnTyping table (leaf .identifier t).label).findings :=
  Findings.append_none _

theorem inChild_mute {t : Tree} (h : Mute t) : (nameChecks table).inChild t = .none := by
  obtain ⟨kind, u, rfl, hkind, -⟩ := h
  have hne : ((.identifier : Kind) == kind) = false := by
    rw [beq_eq_false_iff_ne]
    rintro rfl
    simp at hkind
  rw [Checks.inChild, nameChecks, List.filter_cons_of_neg (by simpa using hne)]
  rfl

theorem names_sound (hknown : TypesKnown table) {l : Label} (hlexical : l.kind.isLexical = false)
    (hl : Truthful table l) {cs : List Tree}
    (h : ∀ c ∈ cs, (∃ t, c = leaf .identifier t) ∨ Mute c) :
    Sound (sayColumn table) (AllTruthful table) ((nameChecks table).on (node l cs))
      (node l cs) := by
  have hall : Sound (sayColumn table) _ ((nameChecks table).on (node l cs)) (node l cs) :=
    .on (P := AllTruthful table) hlexical fun c hc => by
      rcases h c hc with ⟨t, rfl⟩ | hmute
      · rw [inChild_name]
        exact (column_told hknown t).sound
      · rw [inChild_mute hmute]
        exact Told.sound (.mute hmute)
  refine ⟨?_, hall.accounted⟩
  obtain ⟨hlabel, hchildren⟩ := hall.marks
  rw [← hlabel] at hl
  exact allTruthful_of_children hl hchildren

theorem columns_sound (hknown : TypesKnown table) (c : Columns) :
    Sound (sayColumn table) (AllTruthful table) ((nameChecks table).on c.tree) c.tree := by
  refine names_sound hknown rfl (truthful_plain (by decide) (by simp)) ?_
  cases c with
  | all star =>
    intro t ht
    rw [List.mem_singleton.1 ht]
    exact .inr ⟨.operator, star.1, rfl, by decide, by simp⟩
  | only names =>
    intro t (ht : t ∈ names.trees fun name : Name => leaf .identifier name.1)
    rcases Listed.mem_trees ht with ⟨a, rfl⟩ | ⟨comma, rfl⟩
    · exact .inl ⟨a.1, rfl⟩
    · exact .inr ⟨.delimiter, comma, rfl, by decide, by simp⟩

theorem order_sound (hknown : TypesKnown table) (o : OrderClause) :
    Sound (sayColumn table) (AllTruthful table) ((nameChecks table).on o.tree) o.tree := by
  refine names_sound hknown rfl (truthful_plain (by decide) (by simp)) ?_
  refine List.forall_mem_cons.2 ⟨.inr (mute_keyword o.lead (by decide)),
    List.forall_mem_cons.2 ⟨.inr (mute_keyword o.by_ (by decide)),
      List.forall_mem_cons.2 ⟨.inl ⟨o.column.1, rfl⟩, fun t ht => ?_⟩⟩⟩
  obtain ⟨u, hu, rfl⟩ := List.mem_map.1 ht
  obtain ⟨d, -, rfl⟩ := List.mem_map.1 hu
  exact .inr (mute_direction d)

/-! ## Conditions -/

def filterFindings (table : Table) (clause : Tree) : Findings :=
  .join <| (clause.children.zipIdx.drop 1).map fun (child, j) =>
    (expression table child).findings.under j

theorem filter_sound (hknown : TypesKnown table) (w : WhereClause) :
    Sound (sayColumn table) (AllTruthful table) (filterFindings table w.tree) w.tree := by
  have hfindings : filterFindings table w.tree =
      (expression table w.condition.tree).findings.under 1 :=
    Findings.append_none _
  have hmarked : annotate ((expression table w.condition.tree).findings.under 1).marks w.tree =
      node (.plain .whereClause "" (Rule.startPlace w.tokens))
        [leaf .keyword w.lead, marked table w.condition.tree] := by
    rw [WhereClause.tree, Phrase.node, plain, annotate_node]
    simp [into_under, marked]
  have hlead : Told table [] [leaf .keyword w.lead] := .mute (mute_keyword w.lead (by decide))
  refine Told.sound ?_
  rw [hfindings, hmarked]
  exact (hlead.append (expression_told hknown w.condition)).node rfl
    (truthful_plain (by decide) (by simp))

/-! ## Assignments -/

section

variable {a : Assignment}

def target (table : Table) (a : Assignment) : Typing :=
  columnTyping table (leaf .identifier a.target).label

def quarrel (table : Table) (a : Assignment) : Findings :=
  if DataType.compatible (target table a).dataType (typeOf table a.value.tree) then .none
  else .report a.value.tree.place (updateMismatch a.target.1.lexeme (target table a).dataType
    (typeOf table a.value.tree))

/-- Where the target is no column the value is not looked at. -/
theorem assignmentFindings_of_none (h : table.column? a.target.1.lexeme = none) :
    assignmentFindings table a.tree = (target table a).findings.under 0 := by
  have hcolumn : table.hasColumn a.target.1.lexeme = false := by
    rw [Table.hasColumn, h]
    rfl
  change (if !table.hasColumn a.target.1.lexeme || false then _ else _) = _
  rw [hcolumn]
  rfl

theorem assignmentFindings_of_some {c : Column} (h : table.column? a.target.1.lexeme = some c) :
    assignmentFindings table a.tree =
      (target table a).findings.under 0 ++ (expression table a.value.tree).findings.under 2 ++
        quarrel table a := by
  have hcolumn : table.hasColumn a.target.1.lexeme = true := by
    rw [Table.hasColumn, h]
    rfl
  rw [quarrel, typeOf, ← infer_eq_expression]
  change (if !table.hasColumn a.target.1.lexeme || false then _ else _) = _
  rw [hcolumn]
  rfl

end

theorem annotate_target (name : Findings) (a : Assignment) :
    annotate (name.under 0).marks a.tree =
      node (.plain .assignment "" (Rule.startPlace a.tokens))
        [annotate name.marks (leaf .identifier a.target), leaf .operator a.sign, a.value.tree] := by
  rw [Assignment.tree, Phrase.node, plain, annotate_node]
  simp [into_under]

theorem annotate_assignment (name value : Findings) (a : Assignment) :
    annotate (name.under 0 ++ value.under 2 ++ quarrel table a).marks a.tree =
      node (.plain .assignment "" (Rule.startPlace a.tokens))
        [annotate name.marks (leaf .identifier a.target), leaf .operator a.sign,
          annotate value.marks a.value.tree] := by
  have hquarrel : (quarrel table a).marks = [] := by
    rw [quarrel]
    split <;> rfl
  rw [Findings.marks_append, hquarrel, Assignment.tree, Phrase.node, plain, annotate_node]
  simp [into_under]

theorem compatible_unknown (type : String) : DataType.compatible type DataType.unknown = true := by
  rw [DataType.compatible_comm]
  rfl

/-- The value stands at one of its leaves, which is no unknown name if it does not go with its
target. -/
theorem Accounted.quarrel {a : Assignment} {ds : List Diagnostic} {ts : List Tree}
    (h : Accounted (sayColumn table) ds ts)
    (hvalue : ∀ u ∈ (marked table a.value.tree).lexical, u ∈ ts.flatMap lexical) :
    Accounted (sayColumn table) (ds ++ (quarrel table a).diagnostics) ts := by
  obtain ⟨u, hu, hplace, hunknown⟩ := exists_leaf_of_expression table a.value
  rw [Check.quarrel]
  split
  · simpa using h
  · rename_i hmismatch
    refine h.report (isMismatch_updateMismatch ..) (hvalue u hu) hplace (hunknown fun htype => ?_)
    rw [htype, compatible_unknown] at hmismatch
    exact hmismatch rfl

theorem item_sound (hknown : TypesKnown table) (a : Assignment) :
    Sound (sayColumn table) (TrueItem table) (assignmentFindings table a.tree) a.tree := by
  have hname : Told table (target table a).findings.diagnostics
      [annotate (target table a).findings.marks (leaf .identifier a.target)] :=
    column_told hknown a.target
  have htarget := hname.truthful _ (List.mem_singleton_self _)
  have hkind : (annotate (target table a).findings.marks (leaf .identifier a.target)).kind =
      .identifier := kind_annotate ..
  have htext : (annotate (target table a).findings.marks (leaf .identifier a.target)).text =
      a.target.1.lexeme := text_annotate ..
  have hsign : Accounted (sayColumn table) [] [leaf .operator a.sign] :=
    (Told.operator a.sign).accounted
  cases hc : table.column? a.target.1.lexeme with
  | none =>
    have hnone : ∀ c ∈ table.columns, lower c.name ≠ lower a.target.1.lexeme := by
      simpa [Table.column?] using hc
    have hvalue := (inside_expression a.value).unmarked
    have hall := hname.accounted.append (hsign.append (.unmarked hvalue))
    rw [assignmentFindings_of_none hc]
    constructor
    · rw [annotate_target]
      refine .assignment rfl ⟨rfl, rfl⟩ hkind htarget (unmarked_leaf _ _) ?_ fun _ => hvalue
      rintro ⟨c, hmem, hlower⟩
      rw [htext] at hlower
      exact absurd hlower (hnone c hmem)
    · rw [annotate_target]
      simpa using hall.node rfl
  | some c =>
    have hmem := List.mem_of_find?_eq_some hc
    have hlower : lower c.name = lower a.target.1.lexeme := by simpa using List.find?_some hc
    have hvalue := expression_told hknown a.value
    have hall := hname.accounted.append (hsign.append hvalue.accounted)
    rw [assignmentFindings_of_some hc]
    constructor
    · rw [annotate_assignment]
      refine .assignment rfl ⟨rfl, rfl⟩ hkind htarget (unmarked_leaf _ _)
        (fun _ => hvalue.truthful _ (List.mem_singleton_self _)) fun hnone => ?_
      rw [htext] at hnone
      exact absurd hlower (hnone c hmem)
    · rw [annotate_assignment]
      refine (hall.quarrel fun u hu => ?_).node rfl
      simp [hu]

/-- What is checked of a list of assignments. -/
def assignmentChecks (table : Table) : Checks := [(.assignment, assignmentFindings table)]

theorem assignments_sound (hknown : TypesKnown table) (l : Listed Assignment) :
    let t := Phrase.node .assignmentList (l.tokens Assignment.tokens) (l.trees Assignment.tree)
    Sound (sayColumn table) (TruePart table) ((assignmentChecks table).on t) t := by
  intro t
  have hall : Sound (sayColumn table) _ ((assignmentChecks table).on t) t :=
    .on (P := TrueItem table) rfl fun c hc => by
      rcases Listed.mem_trees hc with ⟨a, rfl⟩ | ⟨comma, rfl⟩
      · have hchild : (assignmentChecks table).inChild a.tree = assignmentFindings table a.tree :=
          Findings.append_none _
        rw [hchild]
        exact item_sound hknown a
      · exact .unmarked (.comma rfl (unmarked_leaf _ _)) (unmarked_leaf _ _)
  obtain ⟨hlabel, hchildren⟩ := hall.marks
  refine ⟨.assignments (kind_annotate ..) ?_ hchildren, hall.accounted⟩
  rw [hlabel]
  exact ⟨rfl, rfl⟩

/-! ## Parts -/

def partChecks (table : Table) : Checks :=
  [(.identifier, fun _ => .mark DataType.table (some table.name)),
    (.selectList, (nameChecks table).on),
    (.assignmentList, (assignmentChecks table).on),
    (.whereClause, filterFindings table),
    (.orderClause, (nameChecks table).on)]

def missingChecks : Checks :=
  [(.identifier, fun name =>
    .mark DataType.unknown none ++ .report name.place (missingTable name.text))]

def sayTable (t : Tree) : Diagnostic := ⟨t.place, missingTable t.text⟩

/-- The statements whose marks are spoken of here. -/
def Reading (s : Statement) : Prop := s = .select ∨ s = .update ∨ s = .delete

theorem Sound.clause {f : Findings} {t : Tree}
    (h : Sound (sayColumn table) (AllTruthful table) f t)
    (hkind : t.kind ∈ [.selectList, .whereClause, .orderClause]) :
    Sound (sayColumn table) (TruePart table) f t :=
  ⟨.clause (by rwa [kind_annotate]) h.marks, h.accounted⟩

theorem leaf_sound {kind : Kind} (hkind : kind.isLexical = true) (t : Token) :
    Sound (sayColumn table) (TruePart table) ((partChecks table).inChild (leaf kind t))
      (leaf kind t) := by
  by_cases hname : kind = .identifier
  · subst hname
    exact ⟨.name rfl rfl rfl, .quiet rfl⟩
  · have hnone : (partChecks table).inChild (leaf kind t) = .none := by
      cases kind <;> first | rfl | exact absurd rfl hname
    have hslot : kind.isSlot = false := by
      cases kind <;> first | rfl | exact absurd rfl hname | cases hkind
    rw [hnone]
    exact .unmarked (.other hslot (unmarked_leaf _ _)) (unmarked_leaf _ _)

theorem part_sound (hknown : TypesKnown table) {s : Statement} (hs : Reading s) {c : Tree}
    (hc : Part c) (hslot : c.kind.isSlot = true → c.kind ∈ s.slots) :
    Sound (sayColumn table) (TruePart table) ((partChecks table).inChild c) c := by
  have habsent : .fieldList ∉ s.slots ∧ .valueList ∉ s.slots := by
    rcases hs with rfl | rfl | rfl <;> decide
  cases hc with
  | leaf hk t => exact leaf_sound hk t
  | fields l => exact absurd (hslot rfl) habsent.1
  | values l => exact absurd (hslot rfl) habsent.2
  | columns c =>
    have hchild : (partChecks table).inChild c.tree = (nameChecks table).on c.tree :=
      Findings.append_none _
    rw [hchild]
    exact (columns_sound hknown c).clause (by simp [Columns.tree, Phrase.node])
  | assignments l =>
    have hchild (t : Tree) (ht : t.kind = .assignmentList) :
        (partChecks table).inChild t = (assignmentChecks table).on t := by
      rw [Checks.inChild, ht]
      exact Findings.append_none _
    rw [hchild _ rfl]
    exact assignments_sound hknown l
  | filter w =>
    have hchild : (partChecks table).inChild w.tree = filterFindings table w.tree :=
      Findings.append_none _
    rw [hchild]
    exact (filter_sound hknown w).clause (by simp [WhereClause.tree, Phrase.node])
  | order o =>
    have hchild : (partChecks table).inChild o.tree = (nameChecks table).on o.tree :=
      Findings.append_none _
    rw [hchild]
    exact (order_sound hknown o).clause (by simp [OrderClause.tree, Phrase.node])

theorem missing_name_sound (t : Token) :
    Sound sayTable MissingPart (missingChecks.inChild (leaf .identifier t))
      (leaf .identifier t) := by
  let l : Label := ⟨.identifier, t.lexeme, t.place, some DataType.unknown, none⟩
  have hsay : isMismatch (sayTable (node l [])) = false := isMismatch_missingTable ..
  exact ⟨.name rfl rfl rfl, .unknown rfl hsay⟩

theorem missing_other_sound {c : Tree} (hkind : c.kind ≠ .identifier) (hc : c.Unmarked) :
    Sound sayTable MissingPart (missingChecks.inChild c) c := by
  have hnone : missingChecks.inChild c = .none := by
    rw [Checks.inChild, missingChecks, List.filter_cons_of_neg (by simpa using hkind.symm)]
    rfl
  rw [hnone]
  exact .unmarked (.other hkind hc) hc

theorem mark_sound (t : Token) :
    Sound (sayColumn table) (TruePart table) ((partChecks table).inChild (leaf .error t))
      (leaf .error t) :=
  .unmarked (.other rfl (unmarked_leaf _ _)) (unmarked_leaf _ _)

theorem Part.missing_sound {c : Tree} (hc : Part c) :
    Sound sayTable MissingPart (missingChecks.inChild c) c := by
  by_cases hkind : c.kind = .identifier
  · cases hc with
    | leaf hk t =>
      cases hkind
      exact missing_name_sound t
    | _ => cases hkind
  · exact missing_other_sound hkind hc.inside.unmarked

/-! ## Statements -/

section

variable {s : Statement} {lead : Token} {parts : List Tree} {mark : Option Token} {t : Tree}
  (h : Stated s lead parts mark t)

include h

theorem kind_stated : t.kind = s.kind := by
  rw [h.tree_eq]
  rfl

theorem isLexical_stated : t.label.kind.isLexical = false := by
  have hkind : t.label.kind = s.kind := kind_stated h
  rw [hkind]
  cases s <;> rfl

/-! ### Clauses -/

theorem columnNames_stated (table : Table) (kind : Kind) (hslot : kind.isSlot = true) :
    columnNames table kind t = onChildren kind (nameChecks table).on t := by
  rw [onChildren_eq (h.length_filter_le hslot), columnNames]
  cases t.find? kind with
  | none => rfl
  | some x => exact congrArg (Findings.under x.1) (Findings.append_none _).symm

theorem whereFindings_stated (table : Table) :
    whereFindings table t = onChildren .whereClause (filterFindings table) t := by
  rw [onChildren_eq (h.length_filter_le rfl), whereFindings]
  simp only [infer_eq_expression]
  rfl

theorem update_stated (table : Table) :
    update table t = onChildren .assignmentList (assignmentChecks table).on t ++
      onChildren .whereClause (filterFindings table) t := by
  rw [update, whereFindings_stated h]
  congr 1
  rw [onChildren_eq (h.length_filter_le rfl)]
  cases t.find? .assignmentList with
  | none => rfl
  | some x => exact congrArg (Findings.under x.1) (Findings.append_none _).symm

theorem onChildren_of_absent (kind : Kind) (hslot : kind.isSlot = true) (hkind : kind ∉ s.slots)
    (check : Tree → Findings) : onChildren kind check t = .none := by
  have hnone : t.findAll kind = [] := by
    rw [← List.map_eq_nil_iff, map_snd_findAll, List.filter_eq_nil_iff]
    intro c hc hk
    have hk : c.kind = kind := by simpa using hk
    rw [← hk] at hslot hkind
    exact hkind (h.kind_mem_slots hc hslot)
  rw [onChildren, hnone]
  rfl

/-! ### All of them -/

section

variable {i : Nat} {name : Tree} {catalog : Catalog} (hs : Reading s)
  (hname : t.find? .identifier = some (i, name))

include hs hname

/-- The clauses of a statement are checked one by one; those that it cannot have are absent. -/
theorem statement_of_some (htable : catalog.table? name.text = some table) :
    statement catalog t = (partChecks table).on t := by
  have hnamed : onChildren .identifier (fun _ => .mark DataType.table (some table.name)) t =
      Findings.under i (.mark DataType.table (some table.name)) := by
    rw [onChildren_eq (h.length_filter_le rfl), hname]
  have htogether : (partChecks table).on t =
      Findings.under i (.mark DataType.table (some table.name)) ++
        (onChildren .selectList (nameChecks table).on t ++
          (onChildren .assignmentList (assignmentChecks table).on t ++
            (onChildren .whereClause (filterFindings table) t ++
              onChildren .orderClause (nameChecks table).on t))) := by
    rw [← hnamed, ← Findings.append_none (onChildren .orderClause _ t)]
    rfl
  rw [statement, kind_stated h, htogether]
  rcases hs with rfl | rfl | rfl
  · have hassigned := onChildren_of_absent h .assignmentList rfl (by decide)
    simp only [Statement.kind, withTable, hname, htable, select, whereFindings_stated h,
      columnNames_stated h table .selectList rfl, columnNames_stated h table .orderClause rfl,
      hassigned, Findings.none_append, Findings.append_assoc]
  · have hcolumns := onChildren_of_absent h .selectList rfl (by decide)
    have horder := onChildren_of_absent h .orderClause rfl (by decide)
    simp only [Statement.kind, withTable, hname, htable, update_stated h, hcolumns, horder,
      Findings.none_append, Findings.append_none]
  · have hcolumns := onChildren_of_absent h .selectList rfl (by decide)
    have hassigned := onChildren_of_absent h .assignmentList rfl (by decide)
    have horder := onChildren_of_absent h .orderClause rfl (by decide)
    simp only [Statement.kind, withTable, hname, htable, delete, whereFindings_stated h, hcolumns,
      hassigned, horder, Findings.none_append, Findings.append_none]

theorem statement_of_none (htable : catalog.table? name.text = none) :
    statement catalog t = missingChecks.on t := by
  have hmissing : missingChecks.on t =
      Findings.under i (.mark DataType.unknown none) ++
        .report name.place (missingTable name.text) := by
    refine (Findings.append_none _).trans ((onChildren_eq (h.length_filter_le rfl) _).trans ?_)
    rw [hname]
    rfl
  rw [statement, kind_stated h, hmissing]
  rcases hs with rfl | rfl | rfl <;> simp only [Statement.kind, withTable, hname, htable] <;> rfl

theorem statement_sound_of_some (hknown : TypesKnown table)
    (htable : catalog.table? name.text = some table) :
    Sound (sayColumn table) (fun u => u.label = t.label ∧ ∀ c ∈ u.children, TruePart table c)
      (statement catalog t) t := by
  have hlexical := isLexical_stated h
  have hparts : ∀ c ∈ t.children,
      Sound (sayColumn table) (TruePart table) ((partChecks table).inChild c) c := by
    intro c hc
    rcases h.child c hc with hpart | ⟨u, rfl⟩
    · exact part_sound hknown hs hpart (h.kind_mem_slots hc)
    · exact mark_sound u
  rw [statement_of_some h hs hname htable]
  obtain ⟨l, cs⟩ := t
  exact .on hlexical hparts

theorem statement_sound_of_none (htable : catalog.table? name.text = none) :
    Sound sayTable (fun u => u.label = t.label ∧ ∀ c ∈ u.children, MissingPart c)
      (statement catalog t) t := by
  have hlexical := isLexical_stated h
  have hparts : ∀ c ∈ t.children, Sound sayTable MissingPart (missingChecks.inChild c) c := by
    intro c hc
    rcases h.child c hc with hpart | ⟨u, rfl⟩
    · exact Part.missing_sound hpart
    · exact missing_other_sound nofun (unmarked_leaf _ _)
  rw [statement_of_none h hs hname htable]
  obtain ⟨l, cs⟩ := t
  exact .on hlexical hparts

end

end

end

end SqlScript.Check
