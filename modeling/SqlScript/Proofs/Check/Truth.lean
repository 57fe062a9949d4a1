import SqlScript.Check.Statement
import SqlScript.Proofs.Check.Annotate
import SqlScript.Proofs.Check.Expression
import SqlScript.Proofs.Grammar.Parts

/-!
What marks say, and what is reported, of expressions over the columns of a table. The marks of every
node tell the truth, and each name that is marked as unknown is reported once; all else that is
reported is a mismatch of types, which stands elsewhere.
-/

namespace SqlScript

/-! ## Marks -/

/-- The node is a name that is marked as unknown. -/
def Tree.Label.isUnknown (l : Label) : Bool :=
  l.kind == .identifier && l.dataType == some DataType.unknown

namespace Check
open SqlScript.Text SqlScript.Grammar SqlScript.Phrase SqlScript.Tree

/-- A leaf of the kind with the text is a literal of the type. -/
inductive LiteralType : Kind → String → String → Prop where
  | number {text : String} : LiteralType .number text (DataType.ofNumber text)
  | string {text : String} : LiteralType .string text DataType.text
  | truth {text : String} : LiteralType .booleanLiteral text DataType.boolean
  | null {text : String} (h : upper text = "NULL") : LiteralType .keyword text DataType.null

/-- The marks of a node tell the truth over the columns of a table: a name has the declared type
and spelling of the column that it names, or is unknown if there is none; a condition is a truth
value; a literal has its type; nothing else has a mark. -/
inductive Truthful (table : Table) (l : Label) : Prop where
  | column {c : Column} (hkind : l.kind = .identifier) (hmem : c ∈ table.columns)
      (hname : lower c.name = lower l.text) (htype : l.dataType = some c.dataType)
      (href : l.symbolRef = some (table.name ++ "." ++ c.name))
  | missing (hkind : l.kind = .identifier)
      (hnone : ∀ c ∈ table.columns, lower c.name ≠ lower l.text)
      (htype : l.dataType = some DataType.unknown) (href : l.symbolRef = none)
  | condition (hkind : l.kind = .condition) (htype : l.dataType = some DataType.boolean)
      (href : l.symbolRef = none)
  | literal {type : String} (h : LiteralType l.kind l.text type) (htype : l.dataType = some type)
      (href : l.symbolRef = none)
  | silent (hkind : l.kind ∉ [.identifier, .condition, .number, .string, .booleanLiteral])
      (hnull : l.kind = .keyword → upper l.text ≠ "NULL") (hsilent : l.Silent)

/-- The marks of all nodes of the tree tell the truth. -/
def AllTruthful (table : Table) (t : Tree) : Prop := ∀ u ∈ t.walk, Truthful table u.label

theorem allTruthful_of_children {table : Table} {t : Tree} (ht : Truthful table t.label)
    (hchildren : ∀ c ∈ t.children, AllTruthful table c) : AllTruthful table t := by
  intro u hu
  rw [walk_eq] at hu
  rcases List.mem_cons.1 hu with rfl | hu
  · exact ht
  · obtain ⟨c, hc, huc⟩ := List.mem_flatMap.1 hu
    exact hchildren c hc u huc

/-! ## Reports -/

def unknowns (t : Tree) : List Tree := t.walk.filter (·.label.isUnknown)

theorem isLexical_of_isUnknown {l : Label} (h : l.isUnknown = true) : l.kind.isLexical = true := by
  rw [show l.kind = .identifier from beq_iff_eq.1 (Bool.and_eq_true_iff.1 h).1]
  rfl

theorem unknowns_sublist (t : Tree) : (unknowns t).Sublist t.lexical :=
  List.monotone_filter_right _ fun _ => isLexical_of_isUnknown

def isMismatch (d : Diagnostic) : Bool := "Type mismatch".toList.isPrefixOf d.message.toList

theorem isMismatch_append (lead rest : String)
    (h : "Type mismatch".toList.isPrefixOf lead.toList = true) {d : Diagnostic}
    (hd : d.message = lead ++ rest) : isMismatch d = true := by
  rw [isMismatch, hd, String.toList_append, List.isPrefixOf_iff_prefix]
  exact (List.isPrefixOf_iff_prefix.1 h).trans (List.prefix_append ..)

section

variable (place : Place) (name a b : String)

theorem isMismatch_cannotCompare : isMismatch ⟨place, cannotCompare a b⟩ = true := by
  refine isMismatch_append "Type mismatch in WHERE clause. Cannot compare " (a ++ (" with " ++ b))
    (by decide +kernel) ?_
  unfold cannotCompare
  rw [String.append_assoc, String.append_assoc]

theorem isMismatch_updateMismatch : isMismatch ⟨place, updateMismatch name a b⟩ = true := by
  refine isMismatch_append "Type mismatch in UPDATE. Column '"
    (name ++ ("' expects " ++ (a ++ (" but got " ++ b)))) (by decide +kernel) ?_
  unfold updateMismatch
  rw [String.append_assoc, String.append_assoc, String.append_assoc, String.append_assoc]

theorem isMismatch_missingColumn (table : Table) :
    isMismatch ⟨place, missingColumn table name⟩ = false := by
  simp [isMismatch, missingColumn, List.isPrefixOf]

def missingTable (name : String) : String := "Table '" ++ name ++ "' does not exist"

theorem isMismatch_missingTable : isMismatch ⟨place, missingTable name⟩ = false := by
  simp [isMismatch, missingTable, List.isPrefixOf]

end

/-- The diagnostics are what `say` says of each unknown name in the trees, and mismatches at leaves
that are no unknown names. -/
structure Accounted (say : Tree → Diagnostic) (ds : List Diagnostic) (ts : List Tree) : Prop where
  missing : (ds.filter fun d => !isMismatch d).Perm ((ts.flatMap unknowns).map say)
  mismatch : ∀ d ∈ ds, isMismatch d = true →
    ∃ u ∈ ts.flatMap lexical, d.place = u.place ∧ u.label.isUnknown = false

namespace Accounted

variable {say : Tree → Diagnostic} {ds ds' : List Diagnostic} {ts ts' : List Tree}

theorem nil : Accounted say [] [] := ⟨.refl _, by simp⟩

theorem append (h : Accounted say ds ts) (h' : Accounted say ds' ts') :
    Accounted say (ds ++ ds') (ts ++ ts') := by
  constructor
  · rw [List.filter_append, List.flatMap_append, List.map_append]
    exact h.missing.append h'.missing
  · intro d hd hm
    rw [List.flatMap_append]
    rcases List.mem_append.1 hd with hd | hd
    · obtain ⟨u, hu, hplace⟩ := h.mismatch d hd hm
      exact ⟨u, List.mem_append_left _ hu, hplace⟩
    · obtain ⟨u, hu, hplace⟩ := h'.mismatch d hd hm
      exact ⟨u, List.mem_append_right _ hu, hplace⟩

theorem cons {t : Tree} (h : Accounted say ds [t]) (h' : Accounted say ds' ts') :
    Accounted say (ds ++ ds') (t :: ts') :=
  h.append h'

theorem flatMap {α : Type} {report : α → List Diagnostic} {tree : α → Tree} {as : List α}
    (h : ∀ a ∈ as, Accounted say (report a) [tree a]) :
    Accounted say (as.flatMap report) (as.map tree) := by
  induction as with
  | nil => exact nil
  | cons a as ih =>
    rw [List.forall_mem_cons] at h
    exact h.1.cons (ih h.2)

theorem perm (h : Accounted say ds ts) (hds : ds.Perm ds') : Accounted say ds' ts :=
  ⟨(hds.symm.filter _).trans h.missing, fun d hd => h.mismatch d (hds.symm.subset hd)⟩

/-- A mismatch more, at one of the leaves. -/
theorem report (h : Accounted say ds ts) {d : Diagnostic} (hd : isMismatch d = true)
    {u : Tree} (hu : u ∈ ts.flatMap lexical) (hplace : d.place = u.place)
    (hknown : u.label.isUnknown = false) : Accounted say (ds ++ [d]) ts := by
  constructor
  · rw [List.filter_append, List.filter_cons_of_neg (by simp [hd]), List.filter_nil,
      List.append_nil]
    exact h.missing
  · intro e he hm
    rcases List.mem_append.1 he with he | he
    · exact h.mismatch e he hm
    · rw [List.mem_singleton.1 he]
      exact ⟨u, hu, hplace, hknown⟩

theorem node (h : Accounted say ds ts) {l : Label} (hl : l.kind.isLexical = false) :
    Accounted say ds [Tree.node l ts] := by
  have hnone : l.isUnknown = false := by
    rw [Label.isUnknown, Bool.and_eq_false_iff]
    left
    rw [beq_eq_false_iff_ne]
    rintro hk
    rw [hk] at hl
    cases hl
  have hunknowns : unknowns (Tree.node l ts) = ts.flatMap unknowns := by
    rw [unknowns, walk_eq, List.filter_cons_of_neg (by simpa using hnone), List.filter_flatMap]
    rfl
  refine ⟨?_, ?_⟩
  · rw [List.flatMap_singleton, hunknowns]
    exact h.missing
  · rw [List.flatMap_singleton, lexical_node hl]
    exact h.mismatch

/-- Leaves that are no unknown names. -/
theorem quiet {l : Label} (h : l.isUnknown = false) : Accounted say [] [Tree.node l []] := by
  have hunknowns : unknowns (Tree.node l []) = [] := List.filter_cons_of_neg (by simpa using h)
  refine ⟨?_, by simp⟩
  rw [List.flatMap_singleton, hunknowns]
  rfl

theorem unknown {l : Label} (h : l.isUnknown = true)
    (hsay : isMismatch (say (Tree.node l [])) = false) :
    Accounted say [say (Tree.node l [])] [Tree.node l []] := by
  have hunknowns : unknowns (Tree.node l []) = [Tree.node l []] :=
    List.filter_cons_of_pos (by simpa using h)
  refine ⟨?_, ?_⟩
  · rw [List.flatMap_singleton, hunknowns, List.filter_cons_of_pos (by simp [hsay])]
    rfl
  · intro d hd hm
    rw [List.mem_singleton.1 hd, hsay] at hm
    cases hm

end Accounted

/-! ## Expressions -/

def sayColumn (table : Table) (t : Tree) : Diagnostic := ⟨t.place, missingColumn table t.text⟩

/-- The marks tell the truth, and the diagnostics are those that they call for. -/
structure Told (table : Table) (ds : List Diagnostic) (ts : List Tree) : Prop where
  truthful : ∀ t ∈ ts, AllTruthful table t
  accounted : Accounted (sayColumn table) ds ts

/-- No column has the type that marks unknown names. -/
def TypesKnown (table : Table) : Prop := ∀ c ∈ table.columns, c.dataType ≠ DataType.unknown

/-- The tree with the marks of an expression. -/
def marked (table : Table) (t : Tree) : Tree := annotate (expression table t).findings.marks t

namespace Told

variable {table : Table} {ds ds' : List Diagnostic} {ts ts' : List Tree}

theorem append (h : Told table ds ts) (h' : Told table ds' ts') :
    Told table (ds ++ ds') (ts ++ ts') :=
  ⟨List.forall_mem_append.2 ⟨h.truthful, h'.truthful⟩, h.accounted.append h'.accounted⟩

theorem node (h : Told table ds ts) {l : Label} (hlexical : l.kind.isLexical = false)
    (hl : Truthful table l) : Told table ds [Tree.node l ts] :=
  ⟨List.forall_mem_singleton.2 (allTruthful_of_children hl h.truthful), h.accounted.node hlexical⟩

/-- A leaf that is no unknown name. -/
theorem quiet {l : Label} (hl : Truthful table l) (hknown : l.isUnknown = false) :
    Told table [] [Tree.node l []] :=
  ⟨List.forall_mem_singleton.2 (allTruthful_of_children hl nofun), .quiet hknown⟩

theorem operator (op : Token) : Told table [] [leaf .operator op] :=
  quiet (.silent (by simp [Label.plain]) (by simp [Label.plain]) ⟨rfl, rfl⟩) rfl

end Told

section

variable {table : Table}

theorem column_told (hknown : TypesKnown table) (t : Token) :
    Told table (columnTyping table (leaf .identifier t).label).findings.diagnostics
      [annotate (columnTyping table (leaf .identifier t).label).findings.marks
        (leaf .identifier t)] := by
  have htext : (leaf .identifier t).label.text = t.lexeme := rfl
  rw [columnTyping, htext]
  cases hc : table.column? t.lexeme with
  | some c =>
    have hmem := List.mem_of_find?_eq_some hc
    have hname : lower c.name = lower t.lexeme := by simpa using List.find?_some hc
    refine .quiet (.column rfl hmem hname rfl rfl) ?_
    simpa [Label.isUnknown, Label.annotate] using fun _ => hknown c hmem
  | none =>
    have hnone : ∀ c ∈ table.columns, lower c.name ≠ lower t.lexeme := by
      simpa [Table.column?] using hc
    let l : Label := ⟨.identifier, t.lexeme, t.place, some DataType.unknown, none⟩
    have hunknown : l.isUnknown = true := rfl
    have hsay : isMismatch (sayColumn table (node l [])) = false := isMismatch_missingColumn ..
    refine ⟨?_, Accounted.unknown hunknown hsay⟩
    rw [List.forall_mem_singleton]
    exact allTruthful_of_children (.missing rfl hnone rfl rfl) (List.forall_mem_nil _)

theorem atom_told (hknown : TypesKnown table) (a : Atom) :
    Told table (reports table a.tree) [marked table a.tree] := by
  cases a with
  | name t => exact column_told hknown t.1
  | number t => exact .quiet (.literal .number rfl rfl) rfl
  | string t => exact .quiet (.literal .string rfl rfl) rfl
  | null t =>
    have hword : upper t.1.lexeme = "NULL" := by simpa using (Bool.and_eq_true_iff.1 t.2).2
    refine .quiet (.literal (.null hword) ?_ rfl) rfl
    exact congrArg some (if_pos hword)
  | truth t => exact .quiet (.literal .truth rfl rfl) rfl

/-- A comparison and a chain differ in what they report only. -/
theorem marks_binary {l r : Tree} (hl : l.kind ≠ .operator) (hr : r.kind ≠ .operator)
    (op : Token) :
    (expression table (binary l op r)).findings.marks =
      (Findings.mark DataType.boolean none ++
        ((expression table l).findings.under 0 ++
          (expression table r).findings.under 2)).marks := by
  have hcomparison (op : Tree) (left right : Typing) :
      (comparisonFindings left op right).marks =
        (left.findings.under 0 ++ right.findings.under 2).marks := by
    rw [comparisonFindings, Findings.marks_append]
    split <;> exact List.append_nil _
  rw [binary, plain, expression, expressions_eq_map]
  simp only [Label.plain, List.map_cons, List.map_nil, conditionFindings, Findings.marks_append]
  split
  · rw [hcomparison]
    rfl
  · simp [operandFindings, hl, hr, Findings.none]

theorem marked_binary {l r : Tree} (hl : l.kind ≠ .operator) (hr : r.kind ≠ .operator)
    (op : Token) :
    marked table (binary l op r) =
      node ⟨.condition, upper op.lexeme, op.place, some DataType.boolean, none⟩
        [marked table l, leaf .operator op, marked table r] := by
  rw [marked, marks_binary hl hr, binary, plain, annotate_node]
  simp [into_under, marked, Label.plain, Label.annotate]

theorem operator_mem_lexical (table : Table) {l r : Tree} (hl : l.kind ≠ .operator)
    (hr : r.kind ≠ .operator) (op : Token) :
    leaf .operator op ∈ (marked table (binary l op r)).lexical := by
  have hop : leaf .operator op ∈ (leaf .operator op).lexical := mem_lexical_leaf rfl op
  rw [marked_binary hl hr, lexical_node rfl]
  simp [hop]

theorem marked_negated {t : Tree} (h : t.kind ≠ .operator) (op : Token) :
    marked table (negated op t) =
      node ⟨.condition, "NOT", op.place, some DataType.boolean, none⟩
        [leaf .operator op, marked table t] := by
  rw [marked, negated, plain, expression, expressions_eq_map]
  simp only [Label.plain, List.map_cons, List.map_nil, conditionFindings]
  rw [annotate_node]
  simp [operandFindings, into_under, marked, h, Label.annotate]

theorem Told.binary {l r : Tree} {ds es : List Diagnostic} (hl : l.kind ≠ .operator)
    (hr : r.kind ≠ .operator) (op : Token) (hleft : Told table ds [marked table l])
    (hright : Told table es [marked table r]) :
    Told table (ds ++ es) [marked table (binary l op r)] := by
  rw [marked_binary hl hr]
  exact (hleft.append ((Told.operator op).append hright)).node rfl (.condition rfl rfl rfl)

/-- The marks of an expression tell the truth, and call for what is reported. -/
theorem expression_told (hknown : TypesKnown table) {r : Rank} (e : Expression r) :
    Told table (reports table e.tree) [marked table e.tree] := by
  induction e with
  | atom a => exact atom_told hknown a
  | group _ _ _ ih | ofTerm _ ih | ofComparison _ ih | ofNegation _ ih | ofConjunction _ ih =>
    exact ih
  | compare l op r ihl ihr =>
    have hboth := ihl.binary (kind_tree_ne_operator l) (kind_tree_ne_operator r) op.1 ihr
    rw [Expression.tree, reports_comparison op.2]
    split
    · simpa using hboth
    · have hleaf := operator_mem_lexical table (kind_tree_ne_operator l)
        (kind_tree_ne_operator r) op.1
      exact ⟨hboth.truthful, hboth.accounted.report (isMismatch_cannotCompare ..)
        (by simpa using hleaf) rfl rfl⟩
  | not op e ih =>
    rw [Expression.tree, reports_negated op.1 (kind_tree_ne_operator e),
      marked_negated (kind_tree_ne_operator e)]
    exact ((Told.operator op.1).append ih).node rfl (.condition rfl rfl rfl)
  | and l op r ihl ihr | or l op r ihl ihr =>
    rw [Expression.tree, reports_chain op.2 (by decide)]
    exact ihl.binary (kind_tree_ne_operator l) (kind_tree_ne_operator r) op.1 ihr

theorem marked_atom (table : Table) (a : Atom) :
    ∃ ref, marked table a.tree =
      node ⟨a.kind, a.token.lexeme, a.token.place, some (typeOf table a.tree), ref⟩ [] := by
  cases a with
  | name t =>
    change ∃ ref, annotate (columnTyping table (leaf .identifier t.1).label).findings.marks _ =
      node ⟨_, _, _, some (columnTyping table (leaf .identifier t.1).label).dataType, ref⟩ []
    rw [columnTyping]
    split
    · exact ⟨_, rfl⟩
    · exact ⟨none, rfl⟩
  | _ => exact ⟨none, rfl⟩

/-- An expression stands at one of its leaves; only a bare name that is unknown stands at an unknown
name. -/
theorem exists_leaf_of_expression (table : Table) {r : Rank} (e : Expression r) :
    ∃ u ∈ (marked table e.tree).lexical, e.tree.place = u.place ∧
      (typeOf table e.tree ≠ DataType.unknown → u.label.isUnknown = false) := by
  induction e with
  | atom a =>
    obtain ⟨ref, hmarked⟩ := marked_atom table a
    rw [Expression.tree, hmarked, lexical, walk_eq]
    refine ⟨_, List.mem_filter.2 ⟨List.mem_cons_self .., ?_⟩, rfl, fun htype => ?_⟩
    · cases a <;> rfl
    · simpa [Label.isUnknown] using fun _ => htype
  | group _ _ _ ih | ofTerm _ ih | ofComparison _ ih | ofNegation _ ih | ofConjunction _ ih =>
    exact ih
  | compare l op r | and l op r | or l op r =>
    exact ⟨_, operator_mem_lexical table (kind_tree_ne_operator l)
        (kind_tree_ne_operator r) op.1, rfl,
      fun _ => rfl⟩
  | not op e =>
    rw [Expression.tree, marked_negated (kind_tree_ne_operator e), lexical_node rfl]
    exact ⟨leaf .operator op.1, List.mem_append_left _ (mem_lexical_leaf rfl op.1), rfl,
      fun _ => rfl⟩

end

end Check

end SqlScript
