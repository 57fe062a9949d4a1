import SqlScript.Grammar.Script

/-!
The grammar as data. A phrase holds the tokens that it is made of, each of the class that its place
asks for, so there are no ill-formed phrases. `tokens` writes a phrase down, `tree` is the tree that
stands for it, and `depth` counts the parentheses and NOT signs around its innermost part.
-/

namespace SqlScript.Phrase
open SqlScript.Grammar

/-! ## Tokens of a class -/

abbrev Keyword (word : String) := { t : Token // t.isKeyword word }

abbrev Mark (mark : String) := { t : Token // t.isDelimiter mark }

abbrev Sign (sign : String) := { t : Token // t.isOperator sign }

abbrev Name := { t : Token // t.kind == .identifier }

section

variable {t : Token} {word mark sign : String}

@[simp] theorem isKeyword_of_kind_ne (h : t.kind ≠ .keyword) : t.isKeyword word = false := by
  simp [Token.isKeyword, h]

@[simp] theorem isDelimiter_of_kind_ne (h : t.kind ≠ .delimiter) : t.isDelimiter mark = false := by
  simp [Token.isDelimiter, h]

@[simp] theorem isOperator_of_kind_ne (h : t.kind ≠ .operator) : t.isOperator sign = false := by
  simp [Token.isOperator, h]

@[simp] theorem Keyword.kind (t : Keyword word) : t.1.kind = .keyword := by
  have h := t.2
  simp only [Token.isKeyword, Bool.and_eq_true, beq_iff_eq] at h
  exact h.1

@[simp] theorem Keyword.isKeyword (t : Keyword word) (other : String) :
    t.1.isKeyword other = (word == other) := by
  have h := t.2
  simp only [Token.isKeyword, Bool.and_eq_true, beq_iff_eq] at h
  simp [Token.isKeyword, h.2]

theorem Keyword.text (t : Keyword word) : Text.upper t.1.lexeme = word := by
  simpa [Token.isKeyword] using (Bool.and_eq_true_iff.1 t.2).2

@[simp] theorem Mark.kind (t : Mark mark) : t.1.kind = .delimiter := by
  have h := t.2
  simp only [Token.isDelimiter, Bool.and_eq_true, beq_iff_eq] at h
  exact h.1

@[simp] theorem Mark.isDelimiter (t : Mark mark) (other : String) :
    t.1.isDelimiter other = (mark == other) := by
  have h := t.2
  simp only [Token.isDelimiter, Bool.and_eq_true, beq_iff_eq] at h
  simp [Token.isDelimiter, h.2]

theorem Mark.text (t : Mark mark) : t.1.lexeme = mark := by
  simpa using (Bool.and_eq_true_iff.1 t.2).2

@[simp] theorem Sign.kind (t : Sign sign) : t.1.kind = .operator := by
  have h := t.2
  simp only [Token.isOperator, Bool.and_eq_true, beq_iff_eq] at h
  exact h.1

theorem Sign.text (t : Sign sign) : t.1.lexeme = sign := by
  simpa using (Bool.and_eq_true_iff.1 t.2).2

@[simp] theorem Name.kind (t : Name) : t.1.kind = .identifier := by
  simpa using t.2

theorem relational_of_isRelational (h : isRelational t = true) :
    relationalOperators.contains (Text.upper t.lexeme) = true := by
  rcases Bool.or_eq_true_iff.1 h with h | h
  · have hall : ∀ sign ∈ relationalOperators,
        relationalOperators.contains (Text.upper sign) = true := by
      decide +kernel
    refine hall _ ?_
    simpa using (Bool.and_eq_true_iff.1 h).2
  · have hword : Text.upper t.lexeme = "LIKE" := by
      simpa using (Bool.and_eq_true_iff.1 h).2
    rw [hword]
    decide

end

/-- What stands for itself where a value is wanted. -/
inductive Atom where
  | name (t : Name)
  | number (t : { t : Token // t.kind = .number })
  | string (t : { t : Token // t.kind = .string })
  | null (t : Keyword "NULL")
  | truth (t : { t : Token // t.isKeyword "TRUE" || t.isKeyword "FALSE" })

namespace Atom

def token : Atom → Token
  | name t => t
  | number t => t
  | string t => t
  | null t => t
  | truth t => t

def kind : Atom → Tree.Kind
  | name _ => .identifier
  | number _ => .number
  | string _ => .string
  | null _ => .keyword
  | truth _ => .booleanLiteral

def tree (a : Atom) : Tree := Tree.leaf a.kind a.token

end Atom

/-! ## Expressions -/

/-- How tightly an expression binds, from the tightest. -/
inductive Rank where
  | term
  | comparison
  | negation
  | conjunction
  | condition
  deriving DecidableEq, Repr

/-- A condition is an OR chain of AND chains of negations; a negation is a comparison under any
number of NOT signs; a comparison has at most one sign between two terms. -/
inductive Expression : Rank → Type where
  | atom (a : Atom) : Expression .term
  | group (opening : Mark "(") (inner : Expression .condition) (closing : Mark ")") :
      Expression .term
  | ofTerm (e : Expression .term) : Expression .comparison
  | compare (left : Expression .term) (op : { t : Token // isRelational t })
      (right : Expression .term) : Expression .comparison
  | ofComparison (e : Expression .comparison) : Expression .negation
  | not (op : Keyword "NOT") (operand : Expression .negation) : Expression .negation
  | ofNegation (e : Expression .negation) : Expression .conjunction
  | and (left : Expression .conjunction) (op : Keyword "AND") (right : Expression .negation) :
      Expression .conjunction
  | ofConjunction (e : Expression .conjunction) : Expression .condition
  | or (left : Expression .condition) (op : Keyword "OR") (right : Expression .conjunction) :
      Expression .condition

namespace Expression

variable {r : Rank}

def tokens : {r : Rank} → Expression r → List Token
  | _, atom a => [a.token]
  | _, group l e r => l.1 :: (e.tokens ++ [r.1])
  | _, ofTerm e => e.tokens
  | _, compare l op r => l.tokens ++ op.1 :: r.tokens
  | _, ofComparison e => e.tokens
  | _, not op e => op.1 :: e.tokens
  | _, ofNegation e => e.tokens
  | _, and l op r => l.tokens ++ op.1 :: r.tokens
  | _, ofConjunction e => e.tokens
  | _, or l op r => l.tokens ++ op.1 :: r.tokens

/-- Parentheses leave no trace in the tree. -/
def tree : {r : Rank} → Expression r → Tree
  | _, atom a => a.tree
  | _, group _ e _ => e.tree
  | _, ofTerm e => e.tree
  | _, compare l op r => binary l.tree op r.tree
  | _, ofComparison e => e.tree
  | _, not op e => negated op e.tree
  | _, ofNegation e => e.tree
  | _, and l op r => binary l.tree op r.tree
  | _, ofConjunction e => e.tree
  | _, or l op r => binary l.tree op r.tree

/-- The most parentheses and NOT signs, counted together, that anything in the expression lies
under. Chains cost nothing. -/
def depth : {r : Rank} → Expression r → Nat
  | _, atom _ => 0
  | _, group _ e _ => e.depth + 1
  | _, ofTerm e => e.depth
  | _, compare l _ r => max l.depth r.depth
  | _, ofComparison e => e.depth
  | _, not _ e => e.depth + 1
  | _, ofNegation e => e.depth
  | _, and l _ r => max l.depth r.depth
  | _, ofConjunction e => e.depth
  | _, or l _ r => max l.depth r.depth

theorem tokens_ne_nil (e : Expression r) : e.tokens ≠ [] := by
  induction e with
  | ofTerm _ ih | ofComparison _ ih | ofNegation _ ih | ofConjunction _ ih => exact ih
  | _ => simp [tokens]

end Expression

/-! ## Lists -/

/-- One item or more, with commas between them. -/
structure Listed (α : Type) where
  first : α
  more : List (Mark "," × α)

namespace Listed

variable {α : Type}

def items (l : Listed α) : List α := l.first :: l.more.map (·.2)

def tokens (write : α → List Token) (l : Listed α) : List Token :=
  write l.first ++ l.more.flatMap fun (comma, a) => comma.1 :: write a

def trees (tree : α → Tree) (l : Listed α) : List Tree :=
  tree l.first :: l.more.flatMap fun (comma, a) => [Tree.leaf .delimiter comma, tree a]

def depth (measure : α → Nat) (l : Listed α) : Nat := (l.items.map measure).foldr max 0

theorem tokens_ne_nil {write : α → List Token} (hw : ∀ a, write a ≠ []) (l : Listed α) :
    l.tokens write ≠ [] := by
  simp [tokens, hw]

theorem depth_lt_iff {measure : α → Nat} {l : Listed α} {bound : Nat} :
    l.depth measure < bound ↔ ∀ a ∈ l.items, measure a < bound := by
  have hfold (as : List α) (hb : 0 < bound) :
      (as.map measure).foldr max 0 < bound ↔ ∀ a ∈ as, measure a < bound := by
    induction as with
    | nil => simpa using hb
    | cons a as ih => rw [List.map_cons, List.foldr_cons, Nat.max_lt, ih, List.forall_mem_cons]
  constructor
  · intro h
    exact (hfold _ (Nat.zero_lt_of_lt h)).1 h
  · intro h
    exact (hfold _ (Nat.zero_lt_of_lt (h l.first (by simp [items])))).2 h

/-- Without the commas the trees are those of the items. -/
theorem filter_trees {tree : α → Tree} {p : Tree → Bool} (hp : ∀ a, p (tree a) = true)
    (hd : ∀ t, p (Tree.leaf .delimiter t) = false) (l : Listed α) :
    (l.trees tree).filter p = l.items.map tree := by
  have hmore (more : List (Mark "," × α)) :
      (more.flatMap fun (comma, a) => [Tree.leaf .delimiter comma, tree a]).filter p =
        (more.map (·.2)).map tree := by
    induction more with
    | nil => rfl
    | cons m more ih =>
      rw [List.flatMap_cons, List.filter_append, ih]
      simp [hp, hd]
  rw [trees, items, List.filter_cons_of_pos (hp l.first), hmore, List.map_cons]

end Listed

/-! ## Clauses -/

/-- A node stands at its first token. -/
def node (kind : Tree.Kind) (tokens : List Token) (children : List Tree) : Tree :=
  Tree.plain kind "" (Rule.startPlace tokens) children

theorem startPlace_append {tokens : List Token} (h : tokens ≠ []) (rest : List Token) :
    Rule.startPlace (tokens ++ rest) = Rule.startPlace tokens := by
  cases tokens with
  | nil => exact absurd rfl h
  | cons t ts => rfl

structure FieldDefinition where
  name : Name
  type : { t : Token // isTypeName t }
  key : Option (Keyword "PRIMARY" × Keyword "KEY")

namespace FieldDefinition

def keyTokens (d : FieldDefinition) : List Token := d.key.toList.flatMap fun (p, k) => [p.1, k.1]

def tokens (d : FieldDefinition) : List Token := d.name.1 :: d.type.1 :: d.keyTokens

def tree (d : FieldDefinition) : Tree :=
  node .fieldDefinition d.tokens <|
    Tree.leaf .identifier d.name :: Tree.leaf .type d.type :: d.keyTokens.map (Tree.leaf .keyword)

end FieldDefinition

/-- What a SELECT asks for. -/
inductive Columns where
  | all (star : Sign "*")
  | only (names : Listed Name)

namespace Columns

def tokens : Columns → List Token
  | all star => [star.1]
  | only names => names.tokens fun t : Name => [t.1]

def trees : Columns → List Tree
  | all star => [Tree.leaf .operator star]
  | only names => names.trees fun t : Name => Tree.leaf .identifier t.1

def tree (c : Columns) : Tree := node .selectList c.tokens c.trees

end Columns

structure Assignment where
  target : Name
  sign : Sign "="
  value : Expression .term

namespace Assignment

def tokens (a : Assignment) : List Token := a.target.1 :: a.sign.1 :: a.value.tokens

def tree (a : Assignment) : Tree :=
  node .assignment a.tokens
    [Tree.leaf .identifier a.target, Tree.leaf .operator a.sign, a.value.tree]

def depth (a : Assignment) : Nat := a.value.depth

end Assignment

structure WhereClause where
  lead : Keyword "WHERE"
  condition : Expression .condition

namespace WhereClause

def tokens (c : WhereClause) : List Token := c.lead.1 :: c.condition.tokens

def tree (c : WhereClause) : Tree :=
  node .whereClause c.tokens [Tree.leaf .keyword c.lead, c.condition.tree]

def depth (c : WhereClause) : Nat := c.condition.depth

end WhereClause

structure OrderClause where
  lead : Keyword "ORDER"
  by_ : Keyword "BY"
  column : Name
  direction : Option { t : Token // isDirection t }

namespace OrderClause

def directionTokens (c : OrderClause) : List Token := c.direction.toList.map (·.1)

def tokens (c : OrderClause) : List Token :=
  c.lead.1 :: c.by_.1 :: c.column.1 :: c.directionTokens

def tree (c : OrderClause) : Tree :=
  node .orderClause c.tokens <|
    Tree.leaf .keyword c.lead :: Tree.leaf .keyword c.by_ :: Tree.leaf .identifier c.column ::
      c.directionTokens.map (Tree.leaf .keyword)

end OrderClause

/-! ## Statements -/

/-- What stands between the word that opens a statement and the `;` that ends it. -/
inductive Body : Statement → Type where
  | create (table : Keyword "TABLE") (name : Name) (opening : Mark "(")
      (fields : Listed FieldDefinition) (closing : Mark ")") : Body .create
  | select (columns : Columns) (source : Keyword "FROM") (table : Name)
      (filter : Option WhereClause) (order : Option OrderClause) : Body .select
  | insert (into : Keyword "INTO") (table : Name) (word : Keyword "VALUES") (opening : Mark "(")
      (values : Listed (Expression .term)) (closing : Mark ")") : Body .insert
  | update (table : Name) (set : Keyword "SET") (assignments : Listed Assignment)
      (filter : Option WhereClause) : Body .update
  | delete (source : Keyword "FROM") (table : Name) (filter : Option WhereClause) : Body .delete

namespace Body

variable {s : Statement}

def filterTokens (filter : Option WhereClause) : List Token :=
  filter.toList.flatMap WhereClause.tokens

def filterTrees (filter : Option WhereClause) : List Tree := filter.toList.map WhereClause.tree

def filterDepth (filter : Option WhereClause) : Nat := (filter.map WhereClause.depth).getD 0

def orderTokens (order : Option OrderClause) : List Token := order.toList.flatMap OrderClause.tokens

def orderTrees (order : Option OrderClause) : List Tree := order.toList.map OrderClause.tree

def tokens : {s : Statement} → Body s → List Token
  | _, create table name opening fields closing =>
    table.1 :: name.1 :: opening.1 :: (fields.tokens FieldDefinition.tokens ++ [closing.1])
  | _, select columns source table filter order =>
    columns.tokens ++ source.1 :: table.1 :: (filterTokens filter ++ orderTokens order)
  | _, insert into table word opening values closing =>
    into.1 :: table.1 :: word.1 :: opening.1 :: (values.tokens Expression.tokens ++ [closing.1])
  | _, update table set assignments filter =>
    table.1 :: set.1 :: (assignments.tokens Assignment.tokens ++ filterTokens filter)
  | _, delete source table filter => source.1 :: table.1 :: filterTokens filter

def trees : {s : Statement} → Body s → List Tree
  | _, create table name opening fields closing =>
    [Tree.leaf .keyword table, Tree.leaf .identifier name, Tree.leaf .delimiter opening,
      node .fieldList (fields.tokens FieldDefinition.tokens) (fields.trees FieldDefinition.tree),
      Tree.leaf .delimiter closing]
  | _, select columns source table filter order =>
    columns.tree :: Tree.leaf .keyword source :: Tree.leaf .identifier table ::
      (filterTrees filter ++ orderTrees order)
  | _, insert into table word opening values closing =>
    [Tree.leaf .keyword into, Tree.leaf .identifier table, Tree.leaf .keyword word,
      Tree.leaf .delimiter opening,
      node .valueList (values.tokens Expression.tokens) (values.trees Expression.tree),
      Tree.leaf .delimiter closing]
  | _, update table set assignments filter =>
    Tree.leaf .identifier table :: Tree.leaf .keyword set ::
      node .assignmentList (assignments.tokens Assignment.tokens)
        (assignments.trees Assignment.tree) :: filterTrees filter
  | _, delete source table filter =>
    Tree.leaf .keyword source :: Tree.leaf .identifier table :: filterTrees filter

def depth : {s : Statement} → Body s → Nat
  | _, create .. => 0
  | _, select _ _ _ filter _ => filterDepth filter
  | _, insert _ _ _ _ values _ => values.depth Expression.depth
  | _, update _ _ assignments filter =>
    max (assignments.depth Assignment.depth) (filterDepth filter)
  | _, delete _ _ filter => filterDepth filter

end Body

/-- A complete statement. -/
structure Sentence where
  statement : Statement
  lead : Keyword statement.word
  body : Body statement
  finish : Mark ";"

namespace Sentence

def tokens (s : Sentence) : List Token := s.lead.1 :: (s.body.tokens ++ [s.finish.1])

def tree (s : Sentence) : Tree :=
  Tree.plain s.statement.kind "" s.lead.1.place <|
    Tree.leaf .keyword s.lead :: (s.body.trees ++ [Tree.leaf .delimiter s.finish])

def depth (s : Sentence) : Nat := s.body.depth

end Sentence

/-- A script that is made of the tokens up to the first end mark, and in which nothing lies under
more than `limit` parentheses and NOT signs. -/
structure Reads (tokens : List Token) (limit : Int) (script : List Sentence) : Prop where
  tokens_eq : before tokens = script.flatMap Sentence.tokens
  depth_le : ∀ s ∈ script, (s.depth : Int) ≤ max limit 0

end SqlScript.Phrase
