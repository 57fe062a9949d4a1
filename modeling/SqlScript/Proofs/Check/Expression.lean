import SqlScript.Check.Expression
import SqlScript.Proofs.Catalog.Lookup
import SqlScript.Proofs.Check.WellTyped
import SqlScript.Proofs.Tree.Children

/-!
The check of an expression: nothing is reported exactly if the expression has a type, and then that
is the type which was computed.
-/

namespace SqlScript.Check
open SqlScript.Text SqlScript.Grammar SqlScript.Phrase

/-! ## Trees of expressions -/

theorem kind_tree {r : Rank} (e : Expression r) :
    e.tree.kind = .condition ∨ ∃ a : Atom, e.tree.kind = a.kind := by
  induction e with
  | atom a => exact .inr ⟨a, rfl⟩
  | group _ _ _ ih | ofTerm _ ih | ofComparison _ ih | ofNegation _ ih | ofConjunction _ ih =>
    exact ih
  | compare | not | and | or => exact .inl rfl

theorem kind_tree_ne_operator {r : Rank} (e : Expression r) : e.tree.kind ≠ .operator := by
  rcases kind_tree e with h | ⟨a, h⟩
  · simp [h]
  · cases a <;> simp [h, Atom.kind]

theorem kind_tree_ne_delimiter {r : Rank} (e : Expression r) : e.tree.kind ≠ .delimiter := by
  rcases kind_tree e with h | ⟨a, h⟩
  · simp [h]
  · cases a <;> simp [h, Atom.kind]

theorem kind_tree_eq_identifier_iff {r : Rank} (e : Expression r) :
    e.tree.kind = .identifier ↔ e.isName = true := by
  induction e with
  | atom a => cases a <;> simp [Expression.tree, Atom.tree, Atom.kind, Expression.isName]
  | group _ _ _ ih | ofTerm _ ih | ofComparison _ ih | ofNegation _ ih | ofConjunction _ ih =>
    exact ih
  | compare | not | and | or => simp [Expression.tree, binary, negated, Expression.isName]

/-! ## What is reported -/

/-- What is reported about an expression. -/
def reports (table : Table) (t : Tree) : List Diagnostic :=
  (expression table t).findings.diagnostics

/-- The type that is computed for an expression. -/
def typeOf (table : Table) (t : Tree) : String := (expression table t).dataType

variable {table : Table}

theorem typeOf_binary (l : Tree) (op : Token) (r : Tree) :
    typeOf table (binary l op r) = DataType.boolean := rfl

theorem typeOf_negated (op : Token) (t : Tree) :
    typeOf table (negated op t) = DataType.boolean := rfl

theorem not_relational_of_isKeyword {op : Token} {word : String} (h : op.isKeyword word = true)
    (hword : relationalOperators.contains word = false) :
    relationalOperators.contains (upper op.lexeme) = false := by
  have heq : upper op.lexeme = word := by simpa using (Bool.and_eq_true_iff.1 h).2
  rwa [heq]

theorem reports_condition (text : String) (place : Place) (children : List Tree) :
    reports table (Tree.plain .condition text place children) =
      (conditionFindings (.plain .condition text place) children
        (children.map (expression table))).diagnostics := by
  rw [reports, Tree.plain, expression, expressions_eq_map]
  rfl

theorem reports_comparison {op : Token} (h : isRelational op = true) (l r : Tree) :
    reports table (binary l op r) = reports table l ++ reports table r ++
      if DataType.compatible (typeOf table l) (typeOf table r) then []
      else [⟨op.place, cannotCompare (typeOf table l) (typeOf table r)⟩] := by
  have hop := relational_of_isRelational h
  rw [binary, reports_condition]
  simp only [List.map_cons, List.map_nil, conditionFindings, Tree.Label.plain, hop, if_true,
    comparisonFindings, Findings.diagnostics_append, Findings.diagnostics_under]
  unfold typeOf
  split <;> rfl

/-- Nothing is reported about a comparison if nothing is about its sides, and they go together. -/
theorem reports_comparison_eq_nil_iff {op : Token} (h : isRelational op = true) (l r : Tree) :
    reports table (binary l op r) = [] ↔ reports table l = [] ∧ reports table r = [] ∧
      DataType.compatible (typeOf table l) (typeOf table r) = true := by
  rw [reports_comparison h, List.append_eq_nil_iff, List.append_eq_nil_iff, and_assoc]
  simp

theorem diagnostics_operandFindings (table : Table) (i : Nat) (children : List Tree) :
    (operandFindings i children (children.map (expression table))).diagnostics =
      (children.filter (·.kind ≠ .operator)).flatMap (reports table) := by
  induction children generalizing i with
  | nil => rfl
  | cons child children ih =>
    rw [List.map_cons, operandFindings, Findings.diagnostics_append, ih]
    by_cases h : child.kind = .operator
    · simp [h, Findings.none]
    · simp [h, reports]

theorem reports_chain {op : Token} {word : String} (h : op.isKeyword word = true)
    (hword : relationalOperators.contains word = false) {r s : Rank} (left : Expression r)
    (right : Expression s) :
    reports table (binary left.tree op right.tree) =
      reports table left.tree ++ reports table right.tree := by
  have hop := not_relational_of_isKeyword h hword
  have hoperands :=
    diagnostics_operandFindings table 0 [left.tree, Tree.leaf .operator op, right.tree]
  rw [binary, reports_condition]
  simp only [conditionFindings, List.map_cons, List.map_nil, Tree.Label.plain, hop]
  simpa [kind_tree_ne_operator] using hoperands

theorem reports_negated (op : Token) {t : Tree} (h : t.kind ≠ .operator) :
    reports table (negated op t) = reports table t := by
  rw [negated, reports_condition]
  have hoperands := diagnostics_operandFindings table 0 [Tree.leaf .operator op, t]
  simpa [h, conditionFindings] using hoperands

/-! ## Types -/

/-- A token that names a column has its type. -/
theorem columnTyping_of_names (hw : WellFormed table) {t : Name} {c : Column}
    (h : Names table t c) :
    (columnTyping table (Tree.leaf .identifier t.1).label).findings.diagnostics = [] ∧
      (columnTyping table (Tree.leaf .identifier t.1).label).dataType = c.dataType := by
  have htext : (Tree.leaf .identifier t.1).label.text = t.1.lexeme := rfl
  rw [Names, ← Table.column?_eq_some_iff hw.names_distinct] at h
  rw [columnTyping, htext, h]
  exact ⟨rfl, rfl⟩

/-- Nothing is reported about a token exactly if it names a column. -/
theorem columnTyping_iff (hw : WellFormed table) (t : Name) :
    (columnTyping table (Tree.leaf .identifier t.1).label).findings.diagnostics = [] ↔
      ∃ c, Names table t c := by
  constructor
  · intro h
    have htext : (Tree.leaf .identifier t.1).label.text = t.1.lexeme := rfl
    rw [columnTyping, htext] at h
    cases hc : table.column? t.1.lexeme with
    | some c => exact ⟨c, (Table.column?_eq_some_iff hw.names_distinct).1 hc⟩
    | none =>
      rw [hc] at h
      cases h
  · rintro ⟨c, hc⟩
    exact (columnTyping_of_names hw hc).1

/-- The types of values: those of columns, and that of the null value. -/
def valueTypes : List String := DataType.null :: DataType.columnTypes

theorem compatible_iff {a b : String} (ha : a ∈ valueTypes) (hb : b ∈ valueTypes) :
    DataType.compatible a b = true ↔ Compatible a b := by
  have hall : ∀ a ∈ valueTypes, ∀ b ∈ valueTypes,
      DataType.compatible a b = decide (a = b ∨ a = DataType.null ∨ b = DataType.null ∨
        (a ∈ [DataType.int, DataType.float] ∧ b ∈ [DataType.int, DataType.float])) := by
    decide +kernel
  rw [hall a ha b hb, decide_eq_true_eq, Compatible]

theorem hasType_valueTypes (hw : WellFormed table) {r : Rank} {e : Expression r} {a : String}
    (h : e.HasType table a) : a ∈ valueTypes := by
  induction h with
  | name h => exact List.mem_cons_of_mem _ (hw.types_valid _ h.1)
  | @number t =>
    unfold DataType.ofNumber
    split <;> decide
  | string | null | truth | compare | not | and | or => decide
  | group _ ih | ofTerm _ ih | ofComparison _ ih | ofNegation _ ih | ofConjunction _ ih => exact ih

theorem hasType_atom_iff (hw : WellFormed table) (a : Atom) (type : String) :
    reports table a.tree = [] ∧ typeOf table a.tree = type ↔
      (Expression.atom a).HasType table type := by
  cases a with
  | name t =>
    constructor
    · rintro ⟨hnone, rfl⟩
      obtain ⟨c, hc⟩ := (columnTyping_iff hw t).1 hnone
      have htype : typeOf table (Atom.name t).tree = c.dataType := (columnTyping_of_names hw hc).2
      rw [htype]
      exact .name hc
    · intro h
      cases h with
      | name hc => exact columnTyping_of_names hw hc
  | number t =>
    constructor
    · rintro ⟨-, rfl⟩
      exact .number
    · intro h
      cases h
      exact ⟨rfl, rfl⟩
  | string t =>
    constructor
    · rintro ⟨-, rfl⟩
      exact .string
    · intro h
      cases h
      exact ⟨rfl, rfl⟩
  | null t =>
    have hword : upper t.1.lexeme = "NULL" := by simpa using (Bool.and_eq_true_iff.1 t.2).2
    have htype : typeOf table (Atom.null t).tree = DataType.null := if_pos hword
    rw [htype]
    constructor
    · rintro ⟨-, rfl⟩
      exact .null
    · intro h
      cases h
      exact ⟨rfl, rfl⟩
  | truth t =>
    constructor
    · rintro ⟨-, rfl⟩
      exact .truth
    · intro h
      cases h
      exact ⟨rfl, rfl⟩

/-- Nothing is reported about an expression exactly if it has a type, the one that is computed. -/
theorem hasType_iff (hw : WellFormed table) {r : Rank} (e : Expression r) (type : String) :
    reports table e.tree = [] ∧ typeOf table e.tree = type ↔ e.HasType table type := by
  induction e generalizing type with
  | atom a => exact hasType_atom_iff hw a type
  | group _ e _ ih =>
    refine (ih type).trans ⟨.group, ?_⟩
    intro h
    cases h with
    | group he => exact he
  | ofTerm e ih =>
    refine (ih type).trans ⟨.ofTerm, ?_⟩
    intro h
    cases h with
    | ofTerm he => exact he
  | ofComparison e ih =>
    refine (ih type).trans ⟨.ofComparison, ?_⟩
    intro h
    cases h with
    | ofComparison he => exact he
  | ofNegation e ih =>
    refine (ih type).trans ⟨.ofNegation, ?_⟩
    intro h
    cases h with
    | ofNegation he => exact he
  | ofConjunction e ih =>
    refine (ih type).trans ⟨.ofConjunction, ?_⟩
    intro h
    cases h with
    | ofConjunction he => exact he
  | compare l op r ihl ihr =>
    rw [Expression.tree, typeOf_binary, reports_comparison_eq_nil_iff op.2]
    constructor
    · rintro ⟨⟨hl, hr, hc⟩, rfl⟩
      have hlt := (ihl _).1 ⟨hl, rfl⟩
      have hrt := (ihr _).1 ⟨hr, rfl⟩
      exact .compare hlt hrt
        ((compatible_iff (hasType_valueTypes hw hlt) (hasType_valueTypes hw hrt)).1 hc)
    · intro h
      cases h with
      | compare hlt hrt hc =>
        obtain ⟨hl, rfl⟩ := (ihl _).2 hlt
        obtain ⟨hr, rfl⟩ := (ihr _).2 hrt
        rw [← compatible_iff (hasType_valueTypes hw hlt) (hasType_valueTypes hw hrt)] at hc
        exact ⟨⟨hl, hr, hc⟩, rfl⟩
  | not op e ih =>
    rw [Expression.tree, typeOf_negated, reports_negated op.1 (kind_tree_ne_operator e)]
    constructor
    · rintro ⟨hnone, rfl⟩
      exact .not ((ih _).1 ⟨hnone, rfl⟩)
    · intro h
      cases h with
      | not he => exact ⟨((ih _).2 he).1, rfl⟩
  | and l op r ihl ihr =>
    rw [Expression.tree, typeOf_binary, reports_chain op.2 (by decide), List.append_eq_nil_iff]
    constructor
    · rintro ⟨⟨hl, hr⟩, rfl⟩
      exact .and ((ihl _).1 ⟨hl, rfl⟩) ((ihr _).1 ⟨hr, rfl⟩)
    · intro h
      cases h with
      | and hlt hrt => exact ⟨⟨((ihl _).2 hlt).1, ((ihr _).2 hrt).1⟩, rfl⟩
  | or l op r ihl ihr =>
    rw [Expression.tree, typeOf_binary, reports_chain op.2 (by decide), List.append_eq_nil_iff]
    constructor
    · rintro ⟨⟨hl, hr⟩, rfl⟩
      exact .or ((ihl _).1 ⟨hl, rfl⟩) ((ihr _).1 ⟨hr, rfl⟩)
    · intro h
      cases h with
      | or hlt hrt => exact ⟨⟨((ihl _).2 hlt).1, ((ihr _).2 hrt).1⟩, rfl⟩

theorem exists_hasType_iff (hw : WellFormed table) {r : Rank} (e : Expression r) :
    reports table e.tree = [] ↔ ∃ type, e.HasType table type := by
  constructor
  · intro h
    exact ⟨_, (hasType_iff hw e _).1 ⟨h, rfl⟩⟩
  · rintro ⟨type, h⟩
    exact ((hasType_iff hw e type).2 h).1

end SqlScript.Check
