import SqlScript.Proofs.Check.Truth
import SqlScript.Proofs.Check.Walk
import SqlScript.Proofs.Grammar.ExpressionRules

/-!
What is reported about a condition, and in which order, said along its tree: each operand before the
operator, the left one first. Every name and every comparison answers for itself once.
-/

namespace SqlScript

namespace Tree

mutual

/-- The tree and all below it, each after its children and these from left to right. -/
def bottomUp : Tree → List Tree
  | node l cs => bottomUpAll cs ++ [node l cs]

def bottomUpAll : List Tree → List Tree
  | [] => []
  | t :: ts => bottomUp t ++ bottomUpAll ts

end

end Tree

namespace Check
open SqlScript.Text SqlScript.Grammar SqlScript.Phrase SqlScript.Tree

/-- The tree is one that the rules for conditions and for values build. -/
def Built (t : Tree) : Prop :=
  ∃ room ts rest, (condition room).run ts = .done t rest ∨ (term room).run ts = .done t rest

/-- Over the columns of a table the tree has the type, and these are the reports on it. -/
inductive Reports (table : Table) : Tree → String → List Diagnostic → Prop where
  | column {t : Tree} {c : Column} (hkind : t.kind = .identifier)
      (hcolumn : table.column? t.text = some c) : Reports table t c.dataType []
  | missing {t : Tree} (hkind : t.kind = .identifier) (hcolumn : table.column? t.text = none) :
      Reports table t DataType.unknown [⟨t.place, missingColumn table t.text⟩]
  | literal {t : Tree} {a : String} (h : LiteralType t.kind t.text a) : Reports table t a []
  | chain {t left op right : Tree} {a b : String} {ds es : List Diagnostic}
      (hkind : t.kind = .condition) (htext : t.text = "AND" ∨ t.text = "OR")
      (hchildren : t.children = [left, op, right]) (hop : op.kind = .operator)
      (hleft : Reports table left a ds) (hright : Reports table right b es) :
      Reports table t DataType.boolean (ds ++ es)
  | negation {t op operand : Tree} {a : String} {ds : List Diagnostic}
      (hkind : t.kind = .condition) (htext : t.text = "NOT")
      (hchildren : t.children = [op, operand]) (hop : op.kind = .operator)
      (hoperand : Reports table operand a ds) :
      Reports table t DataType.boolean ds
  | agree {t left op right : Tree} {a b : String} {ds es : List Diagnostic}
      (hkind : t.kind = .condition) (htext : t.text ∈ relationalOperators)
      (hchildren : t.children = [left, op, right]) (hleft : Reports table left a ds)
      (hright : Reports table right b es) (h : DataType.compatible a b = true) :
      Reports table t DataType.boolean (ds ++ es)
  | clash {t left op right : Tree} {a b : String} {ds es : List Diagnostic}
      (hkind : t.kind = .condition) (htext : t.text ∈ relationalOperators)
      (hchildren : t.children = [left, op, right]) (hleft : Reports table left a ds)
      (hright : Reports table right b es) (h : DataType.compatible a b = false) :
      Reports table t DataType.boolean (ds ++ es ++ [⟨op.place, cannotCompare a b⟩])

/-- What a node answers for itself: a name that is no column, a comparison of types that do not go
together. -/
def verdict (table : Table) (t : Tree) : List Diagnostic :=
  match t.kind with
  | .identifier =>
    match table.column? t.text with
    | some _ => []
    | none => [⟨t.place, missingColumn table t.text⟩]
  | .condition =>
    match comparison? t with
    | some (left, op, right) =>
      if DataType.compatible (typeOf table left) (typeOf table right) then []
      else [⟨op.place, cannotCompare (typeOf table left) (typeOf table right)⟩]
    | none => []
  | _ => []

variable {table : Table}

theorem exists_expression {t : Tree} (h : Built t) : ∃ r, ∃ e : Expression r, t = e.tree := by
  obtain ⟨room, ts, rest, hcondition | hterm⟩ := h
  · obtain ⟨e, -, -, rfl⟩ := (condition_exact room).sound hcondition
    exact ⟨_, e, rfl⟩
  · obtain ⟨e, -, -, rfl⟩ := (term_exact room).sound hterm
    exact ⟨_, e, rfl⟩

/-! ## Reports along the tree -/

theorem Reports.kind_ne_operator {t : Tree} {a : String} {ds : List Diagnostic}
    (h : Reports table t a ds) : t.kind ≠ .operator := by
  intro hop
  cases h with
  | column hkind | missing hkind | chain hkind | negation hkind | agree hkind | clash hkind =>
    cases hop.symm.trans hkind
  | literal h =>
    rw [hop] at h
    cases h

theorem typing_of_identifier {t : Tree} (h : t.kind = .identifier) :
    expression table t = columnTyping table t.label := by
  rw [expression_of_not_condition table (by simp [h]), leafTyping, if_pos h]

theorem typing_of_literal {t : Tree} {a : String} (h : LiteralType t.kind t.text a) :
    expression table t = ⟨a, .mark a none⟩ := by
  have htype : literalType t.kind t.text = a := by
    generalize t.kind = kind, t.text = text at h ⊢
    cases h with
    | null hword => exact if_pos hword
    | _ => rfl
  have hkind : t.kind ≠ .condition ∧ t.kind ≠ .identifier := by
    generalize t.kind = kind at h ⊢
    cases h <;> decide
  rw [expression_of_not_condition table hkind.1, leafTyping, if_neg hkind.2, htype]

theorem typeOf_of_condition {t : Tree} (h : t.kind = .condition) :
    typeOf table t = DataType.boolean := by
  rw [typeOf, expression_of_condition table h]

theorem reports_of_comparison {t left op right : Tree} (h : t.kind = .condition)
    (hsides : comparison? t = some (left, op, right)) :
    reports table t = reports table left ++ reports table right ++
      if DataType.compatible (typeOf table left) (typeOf table right) then []
      else [⟨op.place, cannotCompare (typeOf table left) (typeOf table right)⟩] := by
  rw [reports, expression_of_condition table h, hsides]
  simp only [comparisonFindings, Findings.diagnostics_append, Findings.diagnostics_mark,
    Findings.diagnostics_under, List.nil_append, apply_ite Findings.diagnostics]
  rfl

theorem reports_of_operands {t : Tree} (h : t.kind = .condition) (hsides : comparison? t = none) :
    reports table t = (t.children.filter (·.kind ≠ .operator)).flatMap (reports table) := by
  rw [reports, expression_of_condition table h, hsides]
  exact diagnostics_operandFindings table 0 t.children

theorem comparison?_eq_some {t left op right : Tree} (htext : t.text ∈ relationalOperators)
    (hchildren : t.children = [left, op, right]) : comparison? t = some (left, op, right) := by
  simp [comparison?, hchildren, htext]

theorem comparison?_eq_none {t : Tree} (htext : t.text ∉ relationalOperators) :
    comparison? t = none := by
  unfold comparison?
  split
  · simp [htext]
  · rfl

/-- The reports on a tree, and its type, are those that the check finds. -/
theorem Reports.sound {t : Tree} {a : String} {ds : List Diagnostic} (h : Reports table t a ds) :
    typeOf table t = a ∧ reports table t = ds := by
  induction h with
  | column hkind hcolumn | missing hkind hcolumn =>
    rw [Tree.text] at hcolumn
    rw [typeOf, reports, typing_of_identifier hkind, columnTyping, hcolumn]
    exact ⟨rfl, rfl⟩
  | literal h =>
    rw [typeOf, reports, typing_of_literal h]
    exact ⟨rfl, rfl⟩
  | @chain t left op right a b ds es hkind htext hchildren hop hleft hright ihl ihr =>
    have hnone : comparison? t = none := by
      refine comparison?_eq_none ?_
      rcases htext with htext | htext <;> rw [htext] <;> decide
    refine ⟨typeOf_of_condition hkind, ?_⟩
    rw [reports_of_operands hkind hnone, hchildren, ← ihl.2, ← ihr.2]
    simp [hleft.kind_ne_operator, hop, hright.kind_ne_operator]
  | @negation t op operand a ds hkind htext hchildren hop hoperand ih =>
    have hnone : comparison? t = none := comparison?_eq_none (by rw [htext]; decide)
    refine ⟨typeOf_of_condition hkind, ?_⟩
    rw [reports_of_operands hkind hnone, hchildren, ← ih.2]
    simp [hoperand.kind_ne_operator, hop]
  | agree hkind htext hchildren hleft hright hcompatible ihl ihr =>
    refine ⟨typeOf_of_condition hkind, ?_⟩
    rw [reports_of_comparison hkind (comparison?_eq_some htext hchildren), ihl.1, ihr.1, ihl.2,
      ihr.2, if_pos hcompatible, List.append_nil]
  | clash hkind htext hchildren hleft hright hcompatible ihl ihr =>
    refine ⟨typeOf_of_condition hkind, ?_⟩
    rw [reports_of_comparison hkind (comparison?_eq_some htext hchildren), ihl.1, ihr.1, ihl.2,
      ihr.2, if_neg (Bool.eq_false_iff.1 hcompatible)]

/-! ## Expressions -/

theorem reports_atom (table : Table) (a : Atom) :
    Reports table a.tree (typeOf table a.tree) (reports table a.tree) := by
  have hliteral {a : Atom} {type : String} (h : LiteralType a.tree.kind a.tree.text type) :
      Reports table a.tree (typeOf table a.tree) (reports table a.tree) := by
    rw [typeOf, reports, typing_of_literal h]
    exact .literal h
  cases a with
  | name t =>
    have hkind : (Atom.name t).tree.kind = .identifier := rfl
    rw [typeOf, reports, typing_of_identifier hkind, columnTyping]
    cases hcolumn : table.column? (Atom.name t).tree.label.text with
    | some c => exact .column hkind hcolumn
    | none => exact .missing hkind hcolumn
  | number t => exact hliteral .number
  | string t => exact hliteral .string
  | null t => exact hliteral (.null (Keyword.text t))
  | truth t => exact hliteral .truth

/-- What the check finds in a tree that the parser builds are the reports on it. -/
theorem Reports.complete (table : Table) {r : Rank} (e : Expression r) :
    Reports table e.tree (typeOf table e.tree) (reports table e.tree) := by
  induction e with
  | atom a => exact reports_atom table a
  | group _ _ _ ih | ofTerm _ ih | ofComparison _ ih | ofNegation _ ih | ofConjunction _ ih =>
    exact ih
  | compare l op r ihl ihr =>
    have htext : (binary l.tree op.1 r.tree).text ∈ relationalOperators :=
      List.contains_iff_mem.1 (relational_of_isRelational op.2)
    rw [Expression.tree, typeOf_binary, reports_comparison op.2]
    split
    · rw [List.append_nil]
      exact .agree rfl htext rfl ihl ihr ‹_›
    · exact .clash rfl htext rfl ihl ihr (Bool.eq_false_iff.2 ‹_›)
  | not op e ih =>
    rw [Expression.tree, typeOf_negated, reports_negated op.1 ih.kind_ne_operator]
    exact .negation rfl rfl rfl rfl ih
  | and l op r ihl ihr =>
    rw [Expression.tree, typeOf_binary, reports_chain op.2 (by decide)]
    exact .chain rfl (.inl (Keyword.text op)) rfl rfl ihl ihr
  | or l op r ihl ihr =>
    rw [Expression.tree, typeOf_binary, reports_chain op.2 (by decide)]
    exact .chain rfl (.inr (Keyword.text op)) rfl rfl ihl ihr

/-! ## Each node once -/

theorem reports_of_identifier {t : Tree} (h : t.kind = .identifier) :
    reports table t = verdict table t := by
  rw [reports, verdict, h, typing_of_identifier h, columnTyping, Tree.text]
  cases table.column? t.label.text <;> rfl

theorem verdict_comparison {op : Token} (h : isRelational op = true) (l r : Tree) :
    verdict table (binary l op r) =
      if DataType.compatible (typeOf table l) (typeOf table r) then []
      else [⟨op.place, cannotCompare (typeOf table l) (typeOf table r)⟩] := by
  have htext : (binary l op r).text ∈ relationalOperators :=
    List.contains_iff_mem.1 (relational_of_isRelational h)
  have hkind : (binary l op r).kind = .condition := rfl
  rw [verdict, hkind, comparison?_eq_some htext rfl]
  rfl

theorem verdict_of_junction {t : Tree} {word : String} (hkind : t.kind = .condition)
    (htext : t.text = word) (hword : word ∉ relationalOperators) : verdict table t = [] := by
  rw [verdict, hkind, comparison?_eq_none (htext ▸ hword)]

theorem verdict_operator (op : Token) : verdict table (leaf .operator op) = [] := rfl

/-- A comparison with a name that is no column has nothing to answer for. -/
theorem verdict_of_missing {t left op right : Tree} (hkind : t.kind = .condition)
    (hsides : comparison? t = some (left, op, right))
    (h : ∃ side ∈ [left, right], side.kind = .identifier ∧ table.column? side.text = none) :
    verdict table t = [] := by
  have hunknown {side : Tree} (hname : side.kind = .identifier)
      (hnone : table.column? side.text = none) : typeOf table side = DataType.unknown :=
    (Reports.missing hname hnone).sound.1
  rw [verdict, hkind, hsides]
  refine if_pos ?_
  obtain ⟨side, hside, hname, hnone⟩ := h
  rcases List.mem_pair.1 hside with rfl | rfl <;>
    simp [hunknown hname hnone, DataType.compatible, DataType.isWild]

theorem bottomUp_binary (l : Tree) (op : Token) (r : Tree) :
    (binary l op r).bottomUp =
      l.bottomUp ++ ([leaf .operator op] ++ (r.bottomUp ++ [])) ++ [binary l op r] := rfl

theorem bottomUp_negated (op : Token) (t : Tree) :
    (negated op t).bottomUp = [leaf .operator op] ++ (t.bottomUp ++ []) ++ [negated op t] := rfl

theorem reports_eq_verdicts (table : Table) {r : Rank} (e : Expression r) :
    reports table e.tree = e.tree.bottomUp.flatMap (verdict table) := by
  induction e with
  | atom a =>
    refine Eq.trans ?_ (List.append_nil _).symm
    cases a with
    | name t => exact reports_of_identifier rfl
    | number | string | null | truth => rfl
  | group _ _ _ ih | ofTerm _ ih | ofComparison _ ih | ofNegation _ ih | ofConjunction _ ih =>
    exact ih
  | compare l op r ihl ihr =>
    rw [Expression.tree, reports_comparison op.2, bottomUp_binary, ihl, ihr]
    simp [verdict_operator, verdict_comparison op.2]
  | not op e ih =>
    have hown : verdict table (negated op.1 e.tree) = [] :=
      verdict_of_junction rfl (Eq.refl "NOT") (by decide)
    rw [Expression.tree, reports_negated op.1 (kind_tree_ne_operator e), bottomUp_negated, ih]
    simp [verdict_operator, hown]
  | and l op r ihl ihr | or l op r ihl ihr =>
    have hown : verdict table (binary l.tree op.1 r.tree) = [] :=
      verdict_of_junction rfl (Keyword.text op) (by decide)
    rw [Expression.tree, reports_chain op.2 (by decide), bottomUp_binary, ihl, ihr]
    simp [verdict_operator, hown]

/-! ## Visits -/

/-- The paths of the nodes that are marked, in that order. -/
def visited (table : Table) (t : Tree) : List Path :=
  (expression table t).findings.marks.map (·.path)

/-- The paths of all nodes but operators, in pre-order. -/
def operandPaths (t : Tree) : List Path := (t.locate (· != .operator)).map (·.1)

theorem paths_under (i : Nat) (f : Findings) :
    (f.under i).marks.map (·.path) = (f.marks.map (·.path)).map (i :: ·) := by
  simp [Findings.under, Findings.below]

theorem visited_of_identifier {t : Tree} (h : t.kind = .identifier) :
    visited table t = [[]] := by
  rw [visited, typing_of_identifier h, columnTyping]
  cases table.column? t.label.text <;> rfl

theorem visited_binary {l r : Tree} (hl : l.kind ≠ .operator) (hr : r.kind ≠ .operator)
    (op : Token) :
    visited table (binary l op r) =
      [] :: ((visited table l).map (0 :: ·) ++ (visited table r).map (2 :: ·)) := by
  rw [visited, marks_binary hl hr, Findings.marks_append, Findings.marks_append, List.map_append,
    List.map_append, paths_under, paths_under]
  rfl

theorem visited_negated {t : Tree} (h : t.kind ≠ .operator) (op : Token) :
    visited table (negated op t) = [] :: (visited table t).map (1 :: ·) := by
  rw [visited, negated, plain, expression, expressions_eq_map]
  simp [conditionFindings, operandFindings, visited, h, Label.plain, Findings.none, Findings.under,
    Findings.below, Findings.mark]

theorem operandPaths_binary (l : Tree) (op : Token) (r : Tree) :
    operandPaths (binary l op r) =
      [] :: ((operandPaths l).map (0 :: ·) ++ (operandPaths r).map (2 :: ·)) := by
  simp [operandPaths, binary, Tree.plain, Tree.locate, Tree.locateAll, Tree.leaf, Label.plain,
    Function.comp_def]

theorem operandPaths_negated (op : Token) (t : Tree) :
    operandPaths (negated op t) = [] :: (operandPaths t).map (1 :: ·) := by
  simp [operandPaths, negated, Tree.plain, Tree.locate, Tree.locateAll, Tree.leaf, Label.plain,
    Function.comp_def]

/-- Every node is visited once, but for the signs and words between operands. -/
theorem visited_eq (table : Table) {r : Rank} (e : Expression r) :
    visited table e.tree = operandPaths e.tree := by
  induction e with
  | atom a =>
    cases a with
    | name t => exact visited_of_identifier rfl
    | number | string | null | truth => rfl
  | group _ _ _ ih | ofTerm _ ih | ofComparison _ ih | ofNegation _ ih | ofConjunction _ ih =>
    exact ih
  | compare l op r ihl ihr | and l op r ihl ihr | or l op r ihl ihr =>
    rw [Expression.tree, visited_binary (kind_tree_ne_operator l) (kind_tree_ne_operator r),
      operandPaths_binary, ihl, ihr]
  | not op e ih =>
    rw [Expression.tree, visited_negated (kind_tree_ne_operator e), operandPaths_negated, ih]

/-- The walk with a stack finds what the check by recursion finds, in every tree. In one that the
parser builds the reports come operand by operand from the left, and that on a comparison after
those on its sides; every node but an operator is visited once and answers for itself alone, and a
comparison with a name that is no column for nothing. -/
theorem infer_reports {t : Tree} (h : Built t) (table : Table) :
    walk table [([], t)] = (infer table t).findings ∧ infer table t = expression table t ∧
      (∀ type ds, Reports table t type ds ↔
        (infer table t).dataType = type ∧ (infer table t).findings.diagnostics = ds) ∧
      (infer table t).findings.diagnostics = t.bottomUp.flatMap (verdict table) ∧
      (infer table t).findings.marks.map (·.path) = (t.locate (· != .operator)).map (·.1) ∧
      ∀ u left op right, u.kind = .condition → comparison? u = some (left, op, right) →
        (∃ side ∈ [left, right], side.kind = .identifier ∧ table.column? side.text = none) →
        verdict table u = [] := by
  obtain ⟨r, e, rfl⟩ := exists_expression h
  rw [infer_eq_expression]
  refine ⟨?_, rfl, fun type ds => ⟨fun hreports => hreports.sound, ?_⟩, reports_eq_verdicts table e,
    visited_eq table e, fun u left op right => verdict_of_missing⟩
  · rw [(walk_recursion table).2, found_cons, Findings.below_nil]
    exact Findings.append_none _
  · rintro ⟨rfl, rfl⟩
    exact .complete table e

/-- In `(n = 'x') = m` the inner comparison is reported, and the name `m`, which is no column, but
not the outer comparison. -/
theorem infer_reports_nested_comparison :
    let table : Table := ⟨"t", [⟨"n", "INT"⟩]⟩
    let n : Token := ⟨.identifier, "n", ⟨1, 2⟩⟩
    let inner : Token := ⟨.operator, "=", ⟨1, 4⟩⟩
    let x : Token := ⟨.string, "\x27x\x27", ⟨1, 6⟩⟩
    let outer : Token := ⟨.operator, "=", ⟨1, 11⟩⟩
    let m : Token := ⟨.identifier, "m", ⟨1, 13⟩⟩
    let t := binary (binary (leaf .identifier n) inner (leaf .string x)) outer (leaf .identifier m)
    Built t ∧ Reports table t "BOOLEAN"
      [⟨inner.place, cannotCompare "INT" "TEXT"⟩, ⟨m.place, missingColumn table "m"⟩] := by
  intro table n inner x outer m t
  have hbuilt : Built t :=
    ⟨1, [⟨.delimiter, "(", ⟨1, 1⟩⟩, n, inner, x, ⟨.delimiter, ")", ⟨1, 9⟩⟩, outer, m], [],
      .inl (by decide +kernel)⟩
  have hreports := (infer_reports hbuilt table).2.2.1
  exact ⟨hbuilt, (hreports _ _).2 ⟨by decide +kernel, by decide +kernel⟩⟩

end Check

end SqlScript
