import SqlScript.Proofs.Grammar.Broken

/-!
The shape of parsed trees, said of the trees alone. Below a program stand statements; each has the
children of one production, or the front of such a list and one mark behind it. All that stands
below a statement is whole, and there are no other marks.
-/

namespace SqlScript.Shape
open SqlScript.Text SqlScript.Tree SqlScript.Grammar SqlScript.Phrase

/-! ## Lists of children -/

/-- Which lists of trees may stand side by side. -/
abbrev Language := List Tree → Prop

/-- A leaf of the kind, with a text of some sort. -/
structure Leaf (kind : Kind) (p : String → Prop) (t : Tree) : Prop where
  kind_eq : t.kind = kind
  text : p t.text
  children_eq : t.children = []

/-- A node of the kind whose children are of the language. -/
structure Node (kind : Kind) (L : Language) (t : Tree) : Prop where
  kind_eq : t.kind = kind
  text_eq : t.text = ""
  children : L t.children

def single (p : Tree → Prop) : Language := fun ts => ∃ t, ts = [t] ∧ p t

def optional (L : Language) : Language := fun ts => ts = [] ∨ L ts

/-- Stretches of some languages, one behind the other. -/
inductive Sequence : List Language → Language where
  | nil : Sequence [] []
  | cons {L : Language} {Ls : List Language} {ts us : List Tree} (h : L ts) (hs : Sequence Ls us) :
      Sequence (L :: Ls) (ts ++ us)

/-! ## Leaves -/

def name : Tree → Prop := Leaf .identifier fun _ => True

def word (w : String) : Tree → Prop := Leaf .keyword (upper · = w)

def mark (m : String) : Tree → Prop := Leaf .delimiter (· = m)

def sign (s : String) : Tree → Prop := Leaf .operator (· = s)

/-- One item or more, with commas between them. -/
inductive Alternating (item : Tree → Prop) : Language where
  | last {t : Tree} (h : item t) : Alternating item [t]
  | more {t comma : Tree} {ts : List Tree} (h : item t) (hcomma : mark "," comma)
      (hs : Alternating item ts) : Alternating item (t :: comma :: ts)

/-! ## Conditions and values -/

/-- The words and signs that stand between two operands. -/
def binaryOperators : List String := "AND" :: "OR" :: relationalOperators

inductive Operand : Tree → Prop where
  | name {t : Tree} (h : name t) : Operand t
  | number {t : Tree} (h : Leaf .number (fun _ => True) t) : Operand t
  | string {t : Tree} (h : Leaf .string (fun _ => True) t) : Operand t
  | null {t : Tree} (h : word "NULL" t) : Operand t
  | truth {t : Tree} (h : Leaf .booleanLiteral (upper · ∈ ["TRUE", "FALSE"]) t) : Operand t
  | not {t op operand : Tree} (hkind : t.kind = .condition) (htext : t.text = "NOT")
      (hchildren : t.children = [op, operand]) (hop : Leaf .operator (upper · = "NOT") op)
      (hoperand : Operand operand) : Operand t
  | binary {t left op right : Tree} (hkind : t.kind = .condition)
      (htext : t.text ∈ binaryOperators) (hchildren : t.children = [left, op, right])
      (hleft : Operand left) (hop : Leaf .operator (upper · = t.text) op)
      (hright : Operand right) : Operand t

/-! ## Clauses -/

def field : Tree → Prop :=
  Node .fieldDefinition <| Sequence [single name, single (Leaf .type fun _ => True),
    optional (Sequence [single (word "PRIMARY"), single (word "KEY")])]

def fields : Tree → Prop := Node .fieldList (Alternating field)

def columns : Tree → Prop :=
  Node .selectList fun ts => single (sign "*") ts ∨ Alternating name ts

def values : Tree → Prop := Node .valueList (Alternating Operand)

def assignment : Tree → Prop :=
  Node .assignment (Sequence [single name, single (sign "="), single Operand])

def assignments : Tree → Prop := Node .assignmentList (Alternating assignment)

def filter : Tree → Prop := Node .whereClause (Sequence [single (word "WHERE"), single Operand])

def direction : Tree → Prop := Leaf .keyword (upper · ∈ ["ASC", "DESC"])

def order : Tree → Prop :=
  Node .orderClause (Sequence [single (word "ORDER"), single (word "BY"), single name,
    optional (single direction)])

/-! ## Statements -/

/-- What stands behind the word that opens a statement. -/
def tail : Statement → List Language
  | .create => [single (word "TABLE"), single name, single (mark "("), single fields,
      single (mark ")"), single (mark ";")]
  | .select => [single columns, single (word "FROM"), single name, optional (single filter),
      optional (single order), single (mark ";")]
  | .insert => [single (word "INTO"), single name, single (word "VALUES"), single (mark "("),
      single values, single (mark ")"), single (mark ";")]
  | .update => [single name, single (word "SET"), single assignments, optional (single filter),
      single (mark ";")]
  | .delete => [single (word "FROM"), single name, optional (single filter), single (mark ";")]

/-- The children of a statement. -/
def production (s : Statement) : List Language := single (word s.word) :: tail s

/-- The marks of failures in a tree. -/
def errors (t : Tree) : List Tree := t.walk.filter (·.kind == .error)

/-- The node has all children of its statement, or some and a mark, which is the only one in it. -/
inductive Shaped (s : Statement) (t : Tree) : Prop where
  | whole (h : Sequence (production s) t.children) (herrors : errors t = [])
  | broken {front more : List Tree} {error : Tree} (hchildren : t.children = front ++ [error])
      (hfront : front ≠ []) (hmore : more ≠ []) (h : Sequence (production s) (front ++ more))
      (herror : Leaf .error (fun _ => True) error) (herrors : errors t = [error])

/-! ## Shapes of phrases -/

theorem leaf_leaf {kind : Kind} {p : String → Prop} {t : Token} (h : p t.lexeme) :
    Leaf kind p (Tree.leaf kind t) := ⟨rfl, h, rfl⟩

theorem name_leaf (t : Phrase.Name) : name (Tree.leaf .identifier t.1) := leaf_leaf trivial

theorem word_leaf {w : String} (t : Keyword w) : word w (Tree.leaf .keyword t.1) :=
  leaf_leaf (Keyword.text t)

theorem mark_leaf {m : String} (t : Mark m) : mark m (Tree.leaf .delimiter t.1) :=
  leaf_leaf (Mark.text t)

theorem sign_leaf {s : String} (t : Sign s) : sign s (Tree.leaf .operator t.1) :=
  leaf_leaf (Sign.text t)

theorem upper_mem_of_isKeyword {t : Token} {v w : String}
    (h : (t.isKeyword v || t.isKeyword w) = true) : upper t.lexeme ∈ [v, w] := by
  rcases Bool.or_eq_true_iff.1 h with h | h
  · rw [Keyword.text ⟨t, h⟩]
    exact List.mem_cons_self ..
  · rw [Keyword.text ⟨t, h⟩]
    exact List.mem_cons_of_mem _ (List.mem_singleton_self w)

theorem node_node {kind : Kind} {L : Language} {tokens : List Token} {children : List Tree}
    (h : L children) : Node kind L (Phrase.node kind tokens children) := ⟨rfl, rfl, h⟩

theorem Sequence.step {p : Tree → Prop} {Ls : List Language} {t : Tree} {ts : List Tree} (h : p t)
    (hs : Sequence Ls ts) : Sequence (single p :: Ls) (t :: ts) :=
  @Sequence.cons (single p) Ls [t] ts ⟨t, rfl, h⟩ hs

theorem Sequence.last {L : Language} {ts : List Tree} (h : L ts) : Sequence [L] ts := by
  simpa using Sequence.cons h .nil

theorem operand_tree {r : Rank} (e : Expression r) : Operand e.tree := by
  induction e with
  | atom a =>
    cases a with
    | name t => exact .name (name_leaf t)
    | number t => exact .number (leaf_leaf trivial)
    | string t => exact .string (leaf_leaf trivial)
    | null t => exact .null (word_leaf t)
    | truth t => exact .truth (leaf_leaf (upper_mem_of_isKeyword t.2))
  | group _ _ _ ih | ofTerm _ ih | ofComparison _ ih | ofNegation _ ih | ofConjunction _ ih =>
    exact ih
  | not op e ih => exact .not rfl rfl rfl (leaf_leaf (Keyword.text op)) ih
  | compare l op r ihl ihr =>
    have htext : upper op.1.lexeme ∈ binaryOperators :=
      List.mem_cons_of_mem _ <| List.mem_cons_of_mem _ <|
        List.contains_iff_mem.1 (relational_of_isRelational op.2)
    exact .binary rfl htext rfl ihl (leaf_leaf rfl) ihr
  | and l op r ihl ihr =>
    have htext : upper op.1.lexeme ∈ binaryOperators := by
      rw [Keyword.text op]
      decide
    exact .binary rfl htext rfl ihl (leaf_leaf rfl) ihr
  | or l op r ihl ihr =>
    have htext : upper op.1.lexeme ∈ binaryOperators := by
      rw [Keyword.text op]
      decide
    exact .binary rfl htext rfl ihl (leaf_leaf rfl) ihr

theorem alternating_trees {α : Type} {tree : α → Tree} {item : Tree → Prop}
    (h : ∀ a, item (tree a)) (l : Listed α) : Alternating item (l.trees tree) := by
  obtain ⟨first, more⟩ := l
  induction more generalizing first with
  | nil => exact .last (h first)
  | cons m more ih => exact .more (h first) (mark_leaf m.1) (ih m.2)

theorem field_tree (d : FieldDefinition) : field d.tree := by
  refine node_node (.step (name_leaf d.name) (.step (leaf_leaf trivial) (.last ?_)))
  obtain ⟨_, _, _ | ⟨p, k⟩⟩ := d
  · exact .inl rfl
  · exact .inr (.step (word_leaf p) (.step (word_leaf k) .nil))

theorem columns_tree (c : Columns) : columns c.tree := by
  refine node_node ?_
  cases c with
  | all star => exact .inl ⟨_, rfl, sign_leaf star⟩
  | only names => exact .inr (alternating_trees name_leaf names)

theorem assignment_tree (a : Assignment) : assignment a.tree :=
  node_node <| .step (name_leaf a.target) <| .step (sign_leaf a.sign) <|
    .step (operand_tree a.value) .nil

theorem filter_tree (w : WhereClause) : filter w.tree :=
  node_node (.step (word_leaf w.lead) (.step (operand_tree w.condition) .nil))

theorem order_tree (o : OrderClause) : order o.tree := by
  refine node_node <| .step (word_leaf o.lead) <| .step (word_leaf o.by_) <|
    .step (name_leaf o.column) <| .last ?_
  obtain ⟨_, _, _, _ | d⟩ := o
  · exact .inl rfl
  · exact .inr ⟨_, rfl, leaf_leaf (upper_mem_of_isKeyword d.2)⟩

/-! ## Rules and languages -/

/-- What the rule answers is of the language. -/
def Matches (rule : Rule (List Tree)) (L : Language) : Prop :=
  ∀ ⦃ts trees rest⦄, rule.run ts = .done trees rest → L trees

section

variable {α : Type} {follow : List Token → Prop} {ok : α → Prop} {write : α → List Token}

theorem matches_of_exact {rule : Rule (List Tree)} {trees : α → List Tree} {L : Language}
    (h : Exact rule follow ok write trees) (hL : ∀ a, L (trees a)) : Matches rule L := by
  intro ts b rest hr
  obtain ⟨a, -, -, rfl⟩ := h.sound hr
  exact hL a

theorem one_matches {rule : Rule Tree} {tree : α → Tree} {p : Tree → Prop}
    (h : Exact rule follow ok write tree) (hp : ∀ a, p (tree a)) :
    Matches (Rule.one rule) (single p) :=
  matches_of_exact h.one fun a => ⟨_, rfl, hp a⟩

end

theorem keyword_matches (w what : String) : Matches (Rule.keyword w what) (single (word w)) :=
  matches_of_exact (Exact.leaf .keyword _ what) fun t => ⟨_, rfl, word_leaf t⟩

theorem delimiter_matches (m what : String) : Matches (Rule.delimiter m what) (single (mark m)) :=
  matches_of_exact (Exact.leaf .delimiter _ what) fun t => ⟨_, rfl, mark_leaf t⟩

theorem identifier_matches (what : String) : Matches (Rule.identifier what) (single name) :=
  matches_of_exact (Exact.leaf .identifier _ what) fun t => ⟨_, rfl, name_leaf t⟩

theorem optionalWhere_matches (room : Nat) :
    Matches (optionalWhere room) (optional (single filter)) := by
  refine matches_of_exact (optionalWhere_exact room) fun w => ?_
  cases w with
  | none => exact .inl rfl
  | some w => exact .inr ⟨_, rfl, filter_tree w⟩

theorem optionalOrder_matches : Matches optionalOrder (optional (single order)) := by
  refine matches_of_exact optionalOrder_exact fun o => ?_
  cases o with
  | none => exact .inl rfl
  | some o => exact .inr ⟨_, rfl, order_tree o⟩

theorem parts_match (s : Statement) (room : Nat) :
    List.Forall₂ Matches (s.parts room) (tail s) := by
  cases s with
  | create =>
    have hfields := one_matches fieldList_exact fun l => node_node (alternating_trees field_tree l)
    exact .cons (keyword_matches ..) <| .cons (identifier_matches _) <|
      .cons (delimiter_matches ..) <| .cons hfields <| .cons (delimiter_matches ..) <|
      .cons (delimiter_matches ..) .nil
  | select =>
    exact .cons (one_matches selectList_exact columns_tree) <| .cons (keyword_matches ..) <|
      .cons (identifier_matches _) <| .cons (optionalWhere_matches room) <|
      .cons optionalOrder_matches <| .cons (delimiter_matches ..) .nil
  | insert =>
    have hvalues := one_matches (valueList_exact room) fun l =>
      node_node (alternating_trees operand_tree l)
    exact .cons (keyword_matches ..) <| .cons (identifier_matches _) <|
      .cons (keyword_matches ..) <| .cons (delimiter_matches ..) <| .cons hvalues <|
      .cons (delimiter_matches ..) <| .cons (delimiter_matches ..) .nil
  | update =>
    have hassignments := one_matches (assignmentList_exact room) fun l =>
      node_node (alternating_trees assignment_tree l)
    exact .cons (identifier_matches _) <| .cons (keyword_matches ..) <| .cons hassignments <|
      .cons (optionalWhere_matches room) <| .cons (delimiter_matches ..) .nil
  | delete =>
    exact .cons (keyword_matches ..) <| .cons (identifier_matches _) <|
      .cons (optionalWhere_matches room) <| .cons (delimiter_matches ..) .nil

/-! ## Fronts of productions -/

theorem Sequence.append {Ls Ms : List Language} {ts us : List Tree} (h : Sequence Ls ts)
    (hs : Sequence Ms us) : Sequence (Ls ++ Ms) (ts ++ us) := by
  induction h with
  | nil => exact hs
  | cons h _ ih =>
    rw [List.append_assoc]
    exact .cons h ih

/-- The parts that are read are a front of what is asked for, and all of it if nothing fails. -/
theorem run_matches {parts : List (Rule (List Tree))} {Ls : List Language}
    (h : List.Forall₂ Matches parts Ls) (ts : List Token) :
    ∃ done left, Ls = done ++ left ∧ Sequence done (Progress.run parts ts).trees ∧
      (left = [] ↔ (Progress.run parts ts).complaint = none) := by
  induction h generalizing ts with
  | nil => exact ⟨[], [], rfl, .nil, by simp [Progress.run]⟩
  | @cons part L parts Ls hpart _ ih =>
    rw [Progress.run]
    cases hr : part.run ts with
    | refused why rest => exact ⟨[], L :: Ls, rfl, .nil, by simp⟩
    | done trees rest =>
      obtain ⟨done, left, rfl, hdone, hleft⟩ := ih rest
      exact ⟨L :: done, left, rfl, .cons (hpart hr) hdone, hleft⟩

theorem exists_sequence {Ls : List Language} (h : ∀ L ∈ Ls, ∃ ts, L ts) : ∃ ts, Sequence Ls ts := by
  induction Ls with
  | nil => exact ⟨[], .nil⟩
  | cons L Ls ih =>
    obtain ⟨hL, hLs⟩ := List.forall_mem_cons.1 h
    obtain ⟨ts, hts⟩ := hL
    obtain ⟨us, hus⟩ := ih hLs
    exact ⟨ts ++ us, .cons hts hus⟩

theorem exists_single {p : Tree → Prop} (h : ∃ t, p t) : ∃ ts, single p ts := by
  obtain ⟨t, ht⟩ := h
  exact ⟨[t], t, rfl, ht⟩

theorem exists_leaf {kind : Kind} {p : String → Prop} (text : String) (h : p text) :
    ∃ t, Leaf kind p t := ⟨plain kind text ⟨none, none⟩ [], rfl, h, rfl⟩

theorem exists_node {kind : Kind} {L : Language} (h : ∃ ts, L ts) : ∃ t, Node kind L t := by
  obtain ⟨ts, hts⟩ := h
  exact ⟨plain kind "" ⟨none, none⟩ ts, rfl, rfl, hts⟩

theorem exists_alternating {item : Tree → Prop} (h : ∃ t, item t) : ∃ ts, Alternating item ts := by
  obtain ⟨t, ht⟩ := h
  exact ⟨[t], .last ht⟩

theorem exists_word {w : String} (h : upper w = w) : ∃ t, word w t := exists_leaf w h

theorem exists_operand : ∃ t, Operand t := by
  have hnumber : ∃ t, Leaf .number (fun _ => True) t := exists_leaf "" trivial
  obtain ⟨t, ht⟩ := hnumber
  exact ⟨t, .number ht⟩

theorem exists_of_mem_tail (s : Statement) : ∀ L ∈ tail s, ∃ ts, L ts := by
  have hname : ∃ t, name t := exists_leaf "" trivial
  have hmark (m : String) : ∃ t, mark m t := exists_leaf m rfl
  have hmaybe (L : Language) : ∃ ts, optional L ts := ⟨[], .inl rfl⟩
  have hnames : ∃ t, columns t := by
    obtain ⟨ts, hts⟩ := exists_alternating hname
    exact exists_node ⟨ts, .inr hts⟩
  have hfields : ∃ t, fields t := by
    refine exists_node (exists_alternating (exists_node (exists_sequence ?_)))
    simp only [List.forall_mem_cons]
    exact ⟨exists_single hname, exists_single (exists_leaf "" trivial), hmaybe _, nofun⟩
  have hassignments : ∃ t, assignments t := by
    refine exists_node (exists_alternating (exists_node (exists_sequence ?_)))
    simp only [List.forall_mem_cons]
    exact ⟨exists_single hname, exists_single (exists_leaf "=" rfl), exists_single exists_operand,
      nofun⟩
  have hvalues : ∃ t, values t := exists_node (exists_alternating exists_operand)
  cases s with
  | create =>
    simp only [tail, List.forall_mem_cons]
    exact ⟨exists_single (exists_word (by decide)), exists_single hname, exists_single (hmark _),
      exists_single hfields, exists_single (hmark _), exists_single (hmark _), nofun⟩
  | select =>
    simp only [tail, List.forall_mem_cons]
    exact ⟨exists_single hnames, exists_single (exists_word (by decide)), exists_single hname,
      hmaybe _, hmaybe _, exists_single (hmark _), nofun⟩
  | insert =>
    simp only [tail, List.forall_mem_cons]
    exact ⟨exists_single (exists_word (by decide)), exists_single hname,
      exists_single (exists_word (by decide)), exists_single (hmark _), exists_single hvalues,
      exists_single (hmark _), exists_single (hmark _), nofun⟩
  | update =>
    simp only [tail, List.forall_mem_cons]
    exact ⟨exists_single hname, exists_single (exists_word (by decide)),
      exists_single hassignments, hmaybe _, exists_single (hmark _), nofun⟩
  | delete =>
    simp only [tail, List.forall_mem_cons]
    exact ⟨exists_single (exists_word (by decide)), exists_single hname, hmaybe _,
      exists_single (hmark _), nofun⟩

theorem Sequence.ne_nil {Ls : List Language} {p : Tree → Prop} {ts : List Tree}
    (hlast : Ls.getLast? = some (single p)) (h : Sequence Ls ts) : ts ≠ [] := by
  induction h with
  | nil => cases hlast
  | @cons L Ls ts us h _ ih =>
    cases Ls with
    | nil =>
      obtain rfl : L = single p := Option.some.inj hlast
      obtain ⟨t, rfl, -⟩ := h
      exact List.cons_ne_nil _ _
    | cons M Ls =>
      rw [List.getLast?_cons_cons] at hlast
      exact List.append_ne_nil_of_right_ne_nil _ (ih hlast)

/-- What stands in front of a failure goes on to all that is asked for, and a `;` at least is
missing. -/
theorem exists_more {s : Statement} {done left : List Language} {front : List Tree}
    (hsplit : tail s = done ++ left) (hleft : left ≠ []) (hdone : Sequence done front) :
    ∃ more, more ≠ [] ∧ Sequence (tail s) (front ++ more) := by
  have hmem : ∀ L ∈ left, ∃ ts, L ts := by
    intro L hL
    refine exists_of_mem_tail s L ?_
    rw [hsplit]
    exact List.mem_append_right _ hL
  have hlast : left.getLast? = some (single (mark ";")) := by
    have htail : (tail s).getLast? = some (single (mark ";")) := by
      cases s <;> rfl
    rwa [hsplit, List.getLast?_append_of_ne_nil _ hleft] at htail
  obtain ⟨more, hmore⟩ := exists_sequence hmem
  refine ⟨more, hmore.ne_nil hlast, ?_⟩
  rw [hsplit]
  exact hdone.append hmore

/-! ## Statements of a script -/

theorem attempt_shaped {s : Statement} {room : Nat} {stop lead : Token} {ts : List Token} {t : Tree}
    (hlead : lead.isKeyword s.word = true) (ht : (s.attempt room stop lead ts).tree = some t) :
    t.kind = s.kind ∧ t.text = "" ∧ Shaped s t := by
  obtain ⟨parts, hstated⟩ := s.attempt_stated room stop lead ts ht
  have herrors : errors t = _ := hstated.filter_error
  have hword : word s.word (Tree.leaf .keyword lead) := word_leaf ⟨lead, hlead⟩
  obtain ⟨done, left, hsplit, hdone, hleft⟩ := run_matches (parts_match s room) ts
  cases ht
  refine ⟨rfl, rfl, ?_⟩
  simp only [Attempt.blame, Statement.attempt] at herrors
  cases hcomplaint : (Progress.run (s.parts room) ts).complaint with
  | none =>
    rw [hleft.2 hcomplaint, List.append_nil] at hsplit
    rw [hcomplaint] at herrors
    refine .whole ?_ herrors
    rw [plain, children_node, List.append_nil, production, hsplit]
    exact .step hword hdone
  | some why =>
    have hne : left ≠ [] := fun h => by simp [hleft.1 h] at hcomplaint
    obtain ⟨more, hmore, hall⟩ := exists_more hsplit hne hdone
    rw [hcomplaint] at herrors
    exact .broken rfl (List.cons_ne_nil _ _) hmore (.step hword hall) (leaf_leaf trivial) herrors

/-- A parsed tree is a program of statements that are whole or were given up. The marks of those
that were given up are the only ones in the tree. -/
theorem parse_shaped (tokens : List Token) (limit : Int) :
    let t := (parse tokens limit).tree
    t.kind = .program ∧ t.text = "" ∧ errors t = t.children.flatMap errors ∧
      ∀ c ∈ t.children, ∃ s : Statement, c.kind = s.kind ∧ c.text = "" ∧ Shaped s c := by
  intro t
  refine ⟨rfl, rfl, ?_, fun c hc => ?_⟩
  · rw [errors, walk_eq, List.filter_cons_of_neg (by simp [t, parse, program]), List.filter_flatMap]
    rfl
  · rw [children_parse] at hc
    obtain ⟨r, hr, hc⟩ := List.mem_filterMap.1 hc
    obtain ⟨s, lead, us, hlead, hattempt, -⟩ := exists_attempt hr hc
    exact ⟨s, attempt_shaped hlead hattempt⟩

end SqlScript.Shape
