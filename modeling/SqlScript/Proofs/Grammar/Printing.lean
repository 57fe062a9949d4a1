import SqlScript.Proofs.Grammar.Minimal

/-!
Scripts with the fewest parentheses: each part has the tree that it had, up to its place, and is
written with the words that the tree is printed with.
-/

namespace SqlScript.Phrase
open SqlScript.Grammar SqlScript.Text SqlScript.Tree

/-! ## Lists -/

namespace Listed

variable {α β : Type}

def map (f : α → β) (l : Listed α) : Listed β := ⟨f l.first, l.more.map fun (c, a) => (c, f a)⟩

theorem items_map (f : α → β) (l : Listed α) : (l.map f).items = l.items.map f := by
  simp [map, items]

theorem tokens_map (f : α → β) (write : β → List Token) (l : Listed α) :
    (l.map f).tokens write = l.tokens fun a => write (f a) := by
  simp [map, tokens, List.flatMap_map]

theorem trees_map (f : α → β) (tree : β → Tree) (l : Listed α) :
    (l.map f).trees tree = l.trees fun a => tree (f a) := by
  simp [map, trees, List.flatMap_map]

theorem depth_map_le {f : α → β} {measure : α → Nat} {measure' : β → Nat}
    (h : ∀ a, measure' (f a) ≤ measure a) (l : Listed α) :
    (l.map f).depth measure' ≤ l.depth measure := by
  refine Nat.le_of_lt_succ (depth_lt_iff.2 ?_)
  rw [items_map, List.forall_mem_map]
  intro a ha
  have hmeasure := depth_lt_iff.1 (Nat.lt_succ_self (l.depth measure)) a ha
  exact Nat.lt_of_le_of_lt (h a) hmeasure

theorem reuses {write write' : α → List Token} (h : ∀ a, Reuses (write a) (write' a))
    (l : Listed α) : Reuses (l.tokens write) (l.tokens write') := by
  refine (h l.first).append ?_
  induction l.more with
  | nil => exact .nil
  | cons m more ih => exact .append (.cons (by simp) (h m.2)) ih

theorem wordsBelow_trees {tree : α → Tree} {write : α → List Token} {parent : Label}
    (h : ∀ leads a, bracketed (parent.groups leads (tree a).label) (tree a).words =
      (write a).map Token.lexeme) (leads : Bool) (l : Listed α) :
    wordsBelow parent leads (l.trees tree) = (l.tokens write).map Token.lexeme := by
  have hmore (more : List (Mark "," × α)) :
      wordsBelow parent false
          (more.flatMap fun (comma, a) => [Tree.leaf .delimiter comma, tree a]) =
        (more.flatMap fun (comma, a) => comma.1 :: write a).map Token.lexeme := by
    induction more with
    | nil => rfl
    | cons m more ih =>
      rw [List.flatMap_cons, List.flatMap_cons, List.cons_append, List.cons_append, List.nil_append,
        wordsBelow_leaf rfl, wordsBelow, h, ih, List.cons_append, List.map_cons, List.map_append]
  rw [trees, wordsBelow, h, hmore, tokens, List.map_append]

theorem words_node {tree : α → Tree} {write : α → List Token} {kind : Tree.Kind}
    (hk : kind.isLexical = false)
    (hg : ∀ place leads child, (Label.plain kind "" place).groups leads child = false)
    (h : ∀ a, (tree a).words = (write a).map Token.lexeme) (l : Listed α) (ts : List Token) :
    (node kind ts (l.trees tree)).words = (l.tokens write).map Token.lexeme := by
  rw [node, words_plain hk, wordsBelow_trees]
  intro leads a
  rw [hg, bracketed, h]
  rfl

end Listed

/-! ## Clauses without conditions -/

namespace FieldDefinition

theorem words_tree (d : FieldDefinition) : d.tree.words = d.tokens.map Token.lexeme := by
  rw [tree, node, words_plain_of_groups rfl fun _ _ => rfl, flatMap_words_cons_leaf rfl,
    flatMap_words_cons_leaf rfl, flatMap_words_leaf rfl]
  rfl

theorem reuses (d : FieldDefinition) : Reuses d.tokens d.tokens := by
  have htype : d.type.1.kind ≠ .error := by
    rcases Bool.or_eq_true_iff.1 d.type.2 with h | h
    · have hk : d.type.1.kind = .keyword := by simpa using (Bool.and_eq_true_iff.1 h).1
      simp [hk]
    · have hk : d.type.1.kind = .identifier := by simpa using h
      simp [hk]
  refine .cons (by simp) (.cons htype ?_)
  rw [keyTokens]
  cases d.key with
  | none => exact .nil
  | some words => exact .cons (by simp) (.cons (by simp) .nil)

end FieldDefinition

namespace Columns

theorem words_tree (c : Columns) : c.tree.words = c.tokens.map Token.lexeme := by
  cases c with
  | all star =>
    rw [tree, node, words_plain_of_groups rfl fun _ _ => rfl, trees, List.flatMap_singleton,
      words_leaf rfl]
    rfl
  | only names =>
    have hname (t : Name) : (Tree.leaf .identifier t.1).words = [t.1].map Token.lexeme :=
      words_leaf rfl t.1
    exact names.words_node rfl (fun _ _ _ => rfl) hname _

theorem reuses (c : Columns) : Reuses c.tokens c.tokens := by
  cases c with
  | all star => exact .cons (by simp) .nil
  | only names => exact names.reuses fun _ => .cons (by simp) .nil

end Columns

namespace OrderClause

theorem words_tree (c : OrderClause) : c.tree.words = c.tokens.map Token.lexeme := by
  rw [tree, node, words_plain_of_groups rfl fun _ _ => rfl, flatMap_words_cons_leaf rfl,
    flatMap_words_cons_leaf rfl, flatMap_words_cons_leaf rfl, flatMap_words_leaf rfl]
  rfl

theorem reuses (c : OrderClause) : Reuses c.tokens c.tokens := by
  refine .cons (by simp) (.cons (by simp) (.cons (by simp) ?_))
  rw [directionTokens]
  cases c.direction with
  | none => exact .nil
  | some t =>
    exact .cons ((Bool.or_eq_true_iff.1 t.2).elim kind_ne_error_of_keyword
      kind_ne_error_of_keyword) .nil

end OrderClause

/-! ## Clauses with conditions -/

/-- What stands in the place of a value is written as a term. -/
theorem Expression.bracketed_value {kind : Tree.Kind} (hk : kind = .valueList ∨ kind = .assignment)
    (place : Place) (leads : Bool) {r : Rank} (e : Expression r) :
    bracketed ((Label.plain kind "" place).groups leads e.tree.label) e.tree.words =
      (e.least .term).tokens.map Token.lexeme := by
  rw [lexemes_least, wordsAt, ← (label_tree e).2.2]
  rcases hk with rfl | rfl <;> rfl

namespace Assignment

def least (a : Assignment) : Assignment := ⟨a.target, a.sign, a.value.least .term⟩

theorem tree_least (a : Assignment) : a.least.tree = a.tree := by
  simp only [least, tree, Expression.tree_least]
  rfl

theorem depth_least (a : Assignment) : a.least.depth ≤ a.depth :=
  (a.value.depth_least .term).2 (Nat.le_refl _)

theorem words_tree (a : Assignment) : a.tree.words = a.least.tokens.map Token.lexeme := by
  rw [tree, node, words_plain rfl, wordsBelow_leaf rfl, wordsBelow_leaf rfl, wordsBelow,
    a.value.bracketed_value (.inr rfl), wordsBelow, List.append_nil]
  rfl

theorem reuses (a : Assignment) : Reuses a.tokens a.least.tokens :=
  .cons (by simp) (.cons (by simp) (a.value.least_reuses .term))

end Assignment

namespace WhereClause

def least (c : WhereClause) : WhereClause := ⟨c.lead, c.condition.least .condition⟩

theorem tree_least (c : WhereClause) : c.least.tree = c.tree := by
  simp only [least, tree, Expression.tree_least]
  rfl

theorem depth_least (c : WhereClause) : c.least.depth ≤ c.depth :=
  (c.condition.depth_least .condition).2 (Nat.le_refl _)

theorem words_tree (c : WhereClause) : c.tree.words = c.least.tokens.map Token.lexeme := by
  have hnone : decide (Rank.condition.level < c.condition.outer.level) = false :=
    decide_eq_false (Nat.not_lt.2 (Rank.level_le _))
  rw [tree, node, words_plain_of_groups rfl fun _ _ => rfl, flatMap_words_cons_leaf rfl,
    List.flatMap_singleton, least, tokens, List.map_cons, Expression.lexemes_least,
    Expression.wordsAt, hnone]
  rfl

theorem reuses (c : WhereClause) : Reuses c.tokens c.least.tokens :=
  .cons (by simp) (c.condition.least_reuses .condition)

end WhereClause

/-! ## Statements -/

namespace Body

variable {s : Statement}

theorem filterTrees_least (filter : Option WhereClause) :
    filterTrees (filter.map WhereClause.least) = filterTrees filter := by
  cases filter with
  | none => rfl
  | some c => exact congrArg (fun t => [t]) c.tree_least

theorem filterDepth_least (filter : Option WhereClause) :
    filterDepth (filter.map WhereClause.least) ≤ filterDepth filter := by
  cases filter with
  | none => exact Nat.le_refl _
  | some c => exact c.depth_least

theorem words_filterTrees (filter : Option WhereClause) :
    (filterTrees filter).flatMap Tree.words =
      (filterTokens (filter.map WhereClause.least)).map Token.lexeme := by
  cases filter with
  | none => rfl
  | some c => simpa [filterTrees, filterTokens] using c.words_tree

theorem words_orderTrees (order : Option OrderClause) :
    (orderTrees order).flatMap Tree.words = (orderTokens order).map Token.lexeme := by
  cases order with
  | none => rfl
  | some c => simpa [orderTrees, orderTokens] using c.words_tree

theorem filter_reuses (filter : Option WhereClause) :
    Reuses (filterTokens filter) (filterTokens (filter.map WhereClause.least)) := by
  cases filter with
  | none => exact .nil
  | some c => simpa [filterTokens] using c.reuses

theorem order_reuses (order : Option OrderClause) :
    Reuses (orderTokens order) (orderTokens order) := by
  cases order with
  | none => exact .nil
  | some c => simpa [orderTokens] using c.reuses

/-- The statement with the fewest parentheses. -/
def least : {s : Statement} → Body s → Body s
  | _, create table name opening fields closing => create table name opening fields closing
  | _, select columns source table filter order =>
    select columns source table (filter.map WhereClause.least) order
  | _, insert into table word opening values closing =>
    insert into table word opening (values.map fun e => e.least .term) closing
  | _, update table set assignments filter =>
    update table set (assignments.map Assignment.least) (filter.map WhereClause.least)
  | _, delete source table filter => delete source table (filter.map WhereClause.least)

theorem depth_least (body : Body s) : body.least.depth ≤ body.depth := by
  cases body with
  | create => exact Nat.le_refl _
  | select _ _ _ filter _ => exact filterDepth_least filter
  | insert _ _ _ _ values _ =>
    exact values.depth_map_le fun e => (e.depth_least .term).2 (Nat.le_refl _)
  | update _ _ assignments filter =>
    exact max_le_max (assignments.depth_map_le Assignment.depth_least) (filterDepth_least filter)
  | delete _ _ filter => exact filterDepth_least filter

theorem reuses (body : Body s) : Reuses body.tokens body.least.tokens := by
  cases body with
  | create table name opening fields closing =>
    exact .cons (by simp) <| .cons (by simp) <| .cons (by simp) <|
      (fields.reuses FieldDefinition.reuses).append (.cons (by simp) .nil)
  | select columns source table filter order =>
    exact columns.reuses.append <| .cons (by simp) <| .cons (by simp) <|
      (filter_reuses filter).append (order_reuses order)
  | insert into table word opening values closing =>
    rw [least, tokens, tokens, Listed.tokens_map]
    exact .cons (by simp) <| .cons (by simp) <| .cons (by simp) <| .cons (by simp) <|
      (values.reuses fun e => e.least_reuses .term).append (.cons (by simp) .nil)
  | update table set assignments filter =>
    rw [least, tokens, tokens, Listed.tokens_map]
    exact .cons (by simp) <| .cons (by simp) <|
      (assignments.reuses Assignment.reuses).append (filter_reuses filter)
  | delete source table filter =>
    exact .cons (by simp) <| .cons (by simp) <| filter_reuses filter

/-- Only places change: a list of values may start with another token. -/
theorem unplaced_trees (body : Body s) :
    body.least.trees.map unplaced = body.trees.map unplaced := by
  cases body with
  | create => rfl
  | select columns source table filter order => rw [least, trees, trees, filterTrees_least]
  | insert into table word opening values closing =>
    have hvalues : (values.map fun e => e.least .term).trees Expression.tree =
        values.trees Expression.tree := by
      simp only [Listed.trees_map, Expression.tree_least]
    rw [least, trees, trees, hvalues]
    simp only [List.map_cons, node, unplaced_plain]
  | update table set assignments filter =>
    have hassignments : (assignments.map Assignment.least).trees Assignment.tree =
        assignments.trees Assignment.tree := by
      simp only [Listed.trees_map, Assignment.tree_least]
    rw [least, trees, trees, hassignments, filterTrees_least]
    simp only [List.map_cons, node, unplaced_plain]
  | delete source table filter => rw [least, trees, trees, filterTrees_least]

theorem words_trees (body : Body s) :
    body.trees.flatMap Tree.words = body.least.tokens.map Token.lexeme := by
  cases body with
  | create table name opening fields closing =>
    have hfields := @Listed.words_node _ _ _ .fieldList rfl (fun _ _ _ => rfl)
      FieldDefinition.words_tree fields (fields.tokens FieldDefinition.tokens)
    rw [trees, flatMap_words_cons_leaf rfl, flatMap_words_cons_leaf rfl,
      flatMap_words_cons_leaf rfl, List.flatMap_cons, hfields, flatMap_words_cons_leaf rfl]
    simp [least, tokens]
  | select columns source table filter order =>
    rw [trees, List.flatMap_cons, columns.words_tree, flatMap_words_cons_leaf rfl,
      flatMap_words_cons_leaf rfl, List.flatMap_append, words_filterTrees, words_orderTrees]
    simp [least, tokens]
  | insert into table word opening values closing =>
    have hvalues : (node .valueList (values.tokens Expression.tokens)
          (values.trees Expression.tree)).words =
        (values.tokens fun e => (e.least .term).tokens).map Token.lexeme := by
      rw [node, words_plain rfl, Listed.wordsBelow_trees]
      exact fun leads e => e.bracketed_value (.inl rfl) _ leads
    rw [trees, flatMap_words_cons_leaf rfl, flatMap_words_cons_leaf rfl,
      flatMap_words_cons_leaf rfl, flatMap_words_cons_leaf rfl, List.flatMap_cons, hvalues,
      flatMap_words_cons_leaf rfl]
    simp [least, tokens, Listed.tokens_map]
  | update table set assignments filter =>
    have hassignments := @Listed.words_node _ _ _ .assignmentList rfl (fun _ _ _ => rfl)
      Assignment.words_tree assignments (assignments.tokens Assignment.tokens)
    rw [trees, flatMap_words_cons_leaf rfl, flatMap_words_cons_leaf rfl, List.flatMap_cons,
      hassignments, words_filterTrees]
    simp [least, tokens, Listed.tokens_map]
  | delete source table filter =>
    rw [trees, flatMap_words_cons_leaf rfl, flatMap_words_cons_leaf rfl, words_filterTrees]
    simp [least, tokens]

end Body

namespace Sentence

def least (s : Sentence) : Sentence := ⟨s.statement, s.lead, s.body.least, s.finish⟩

theorem depth_least (s : Sentence) : s.least.depth ≤ s.depth := s.body.depth_least

theorem reuses (s : Sentence) : Reuses s.tokens s.least.tokens :=
  .cons (by simp) (s.body.reuses.append (.cons (by simp) .nil))

theorem unplaced_tree (s : Sentence) : s.least.tree.unplaced = s.tree.unplaced := by
  rw [tree, tree, unplaced_plain, unplaced_plain, List.map_cons, List.map_cons, List.map_append,
    List.map_append]
  simp only [least, s.body.unplaced_trees]

theorem words_tree (s : Sentence) : s.tree.words = s.least.tokens.map Token.lexeme := by
  have hkind : s.statement.kind.isLexical = false := by
    cases s.statement <;> rfl
  have hgroups (place : Place) (leads : Bool) (child : Label) :
      (Label.plain s.statement.kind "" place).groups leads child = false := by
    cases s.statement <;> rfl
  rw [tree, words_plain_of_groups hkind (hgroups _), flatMap_words_cons_leaf rfl,
    List.flatMap_append, s.body.words_trees, flatMap_words_cons_leaf rfl]
  simp [tokens, least]

/-- The tokens of a script with the fewest parentheses. -/
def leastTokens (script : List Sentence) : List Token := (script.map least).flatMap tokens

theorem leastTokens_reuses (script : List Sentence) :
    Reuses (script.flatMap tokens) (leastTokens script) := by
  induction script with
  | nil => exact .nil
  | cons s script ih => exact s.reuses.append ih

theorem words_trees (script : List Sentence) :
    (script.map tree).flatMap Tree.words = (leastTokens script).map Token.lexeme := by
  rw [leastTokens, List.flatMap_map, List.flatMap_map, List.map_flatMap]
  exact congrArg (script.flatMap ·) (funext words_tree)

end Sentence

end SqlScript.Phrase
