import SqlScript.Proofs.Grammar.ExpressionRules

/-!
The rules of clauses and statements read exactly the phrases that are named after them.
-/

namespace SqlScript.Grammar
open SqlScript.Phrase

/-! ## Clauses that a word opens -/

/-- A word that has been looked at is read as any other. -/
theorem seq_opening_run_eq (p : Token → Bool) {t : Token} (h : p t = true)
    (rs : List (Rule (List Tree))) (ts : List Token) :
    (Rule.seq (Rule.opening :: rs)).run (t :: ts) =
      (Rule.seq (Rule.leaf .keyword p "" :: rs)).run (t :: ts) := by
  have hleaf : (Rule.leaf .keyword p "").run (t :: ts) = .done [Tree.leaf .keyword t] ts :=
    Rule.leaf_eq_done.2 ⟨t, h, rfl, rfl⟩
  rw [Rule.seq, Rule.seq, Rule.run_bind, Rule.run_bind, Rule.opening_cons, hleaf]

/-- The same for a clause of its own. -/
theorem one_node_opening_run_eq (p : Token → Bool) {t : Token} (h : p t = true)
    (kind : Tree.Kind) (rs : List (Rule (List Tree))) (ts : List Token) :
    (Rule.one (Rule.node kind (Rule.seq (Rule.opening :: rs)))).run (t :: ts) =
      (Rule.one (Rule.node kind (Rule.seq (Rule.leaf .keyword p "" :: rs)))).run (t :: ts) := by
  rw [Rule.one, Rule.one, Rule.run_bind, Rule.run_bind, Rule.run_node, Rule.run_node,
    seq_opening_run_eq p h]

theorem optional_congr {p : Token → Bool} {r r' : Rule (List Tree)}
    (h : ∀ t ts, p t = true → r.run (t :: ts) = r'.run (t :: ts)) (ts : List Token) :
    (Rule.optional p r).run ts = (Rule.optional p r').run ts := by
  cases ts with
  | nil => rfl
  | cons t ts =>
    cases hp : p t with
    | false =>
      have hn : ∀ u ∈ (t :: ts).head?, p u = false := by simpa using hp
      rw [Rule.optional_of_not_head hn, Rule.optional_of_not_head hn]
    | true => rw [Rule.optional_of_head hp, Rule.optional_of_head hp, h t ts hp]

theorem optionalWhere_exact (room : Nat) :
    Exact (optionalWhere room) (fun rest => Ends rest ∧ NotNext (·.isKeyword "WHERE") rest)
      (fun f => Body.filterDepth f < room + 1) Body.filterTokens Body.filterTrees := by
  have hseq : Exact (Rule.seq [Rule.leaf .keyword (·.isKeyword "WHERE") "",
      Rule.one (condition room)]) _ _ _ _ := .seq_leaf (condition_exact room).one.seq_one
  have hclause := (hseq.node .whereClause (by simp)).one
  have hopt := (hclause.optional (p := (·.isKeyword "WHERE")) fun a => ⟨a.1.1, _, rfl, a.1.2⟩).congr
    (optionalWhere room) (optional_congr fun t ts ht =>
      one_node_opening_run_eq (·.isKeyword "WHERE") ht _ _ ts)
  refine hopt.map (Option.map fun x => ⟨x.1, x.2⟩) ?_ ?_ ?_ ?_
  · intro f
    exact ⟨f.map fun c => (c.lead, c.condition), by cases f <;> rfl⟩
  · intro o
    cases o <;> simp [Body.filterDepth, WhereClause.depth]
  · intro o
    cases o <;> rfl
  · intro o
    cases o <;> rfl

theorem optionalOrder_exact :
    Exact optionalOrder
      (fun rest => NotNext isDirection rest ∧ NotNext (·.isKeyword "ORDER") rest) Any
      Body.orderTokens Body.orderTrees := by
  have hdirection := (Exact.leaf .keyword isDirection "").optional (p := isDirection)
    fun a => ⟨a.1, _, rfl, a.2⟩
  have hopening := (hdirection.mono_follow fun rest h => ⟨trivial, h⟩).congr
    (Rule.optional isDirection Rule.opening) (optional_congr fun t ts ht => by
      rw [Rule.opening_cons, eq_comm]
      exact Rule.leaf_eq_done.2 ⟨t, ht, rfl, rfl⟩)
  have hseq : Exact (Rule.seq [Rule.leaf .keyword (·.isKeyword "ORDER") "",
      Rule.keyword "BY" "'BY' after 'ORDER'", Rule.identifier "column name in ORDER BY",
      Rule.optional isDirection Rule.opening]) _ _ _ _ :=
    .seq_leaf <| .seq_leaf <| .seq_leaf hopening.seq_one
  have hclause := (hseq.node .orderClause (by simp)).one
  have hopt := (hclause.optional (p := (·.isKeyword "ORDER")) fun a => ⟨a.1.1, _, rfl, a.1.2⟩).congr
    optionalOrder (optional_congr fun t ts ht =>
      one_node_opening_run_eq (·.isKeyword "ORDER") ht _ _ ts)
  refine hopt.map (Option.map fun x => ⟨x.1, x.2.1, x.2.2.1, x.2.2.2⟩) ?_ ?_ ?_ ?_
  · intro f
    exact ⟨f.map fun c => (c.lead, c.by_, c.column, c.direction), by cases f <;> rfl⟩
  · intro o
    simp
  · rintro (_ | ⟨lead, by_, column, direction⟩)
    · rfl
    · cases direction <;> rfl
  · rintro (_ | ⟨lead, by_, column, direction⟩)
    · rfl
    · cases direction <;> rfl

/-! ## Columns -/

/-- No word comes next that goes on with the definition of a column. -/
abbrev KeyNotNext : List Token → Prop := NotNext (·.isKeyword "PRIMARY")

theorem primaryKey_exact :
    Exact primaryKey KeyNotNext Any
      (fun key : Option (Keyword "PRIMARY" × Keyword "KEY") =>
        key.toList.flatMap fun (p, k) => [p.1, k.1])
      fun key => key.toList.flatMap fun (p, k) =>
        [Tree.leaf .keyword p.1, Tree.leaf .keyword k.1] := by
  have hseq : Exact (Rule.seq [Rule.leaf .keyword (·.isKeyword "PRIMARY") "",
      Rule.keyword "KEY" "'KEY' after 'PRIMARY'"]) _ _ _ _ := .seq_leaf (Exact.leaf ..).seq_one
  have hopt := hseq.optional (p := (·.isKeyword "PRIMARY")) fun a => ⟨a.1.1, _, rfl, a.1.2⟩
  have hrun := hopt.congr primaryKey (optional_congr fun t ts ht =>
    seq_opening_run_eq (·.isKeyword "PRIMARY") ht _ ts)
  refine (hrun.mono_follow fun rest h => ⟨trivial, h⟩).map id ?_ ?_ ?_ ?_
  · intro key
    exact ⟨key, rfl⟩
  · intro key
    simp
  · intro key
    rfl
  · intro key
    rfl

theorem fieldDefinition_exact :
    Exact fieldDefinition KeyNotNext Any FieldDefinition.tokens FieldDefinition.tree := by
  have hseq : Exact (Rule.seq [Rule.identifier "column name",
      Rule.leaf .type isTypeName "column type", primaryKey]) _ _ _ _ :=
    .seq_leaf <| .seq_leaf primaryKey_exact.seq_one
  refine (hseq.node .fieldDefinition (by simp)).map (fun x => ⟨x.1, x.2.1, x.2.2⟩)
    ?_ ?_ ?_ ?_
  · rintro ⟨name, type, key⟩
    exact ⟨(name, type, key), rfl⟩
  · intro x
    simp
  · rintro ⟨name, type, key⟩
    cases key <;> rfl
  · rintro ⟨name, type, key⟩
    cases key <;> rfl

theorem fieldList_exact :
    Exact fieldList (fun rest => KeyNotNext rest ∧ NotNext (·.isDelimiter ",") rest) Any
      (Listed.tokens FieldDefinition.tokens) fun l =>
        Phrase.node .fieldList (l.tokens FieldDefinition.tokens)
          (l.trees FieldDefinition.tree) := by
  have hlist := fieldDefinition_exact.commaList fun comma ts => by simp
  have hnode := hlist.node .fieldList (Listed.tokens_ne_nil (by
    simp [FieldDefinition.tokens]))
  exact hnode.map id (fun l => ⟨l, rfl⟩) (by simp) (fun _ => rfl) fun _ => rfl

/-! ## Lists of names, values and assignments -/

theorem columnName_exact :
    Exact columnName Any Any (fun t : Name => [t.1]) fun t => Tree.leaf .identifier t.1 where
  sound h := by
    obtain ⟨t, _, ht, hpure⟩ := Rule.bind_eq_done.1 h
    obtain ⟨hk, rfl⟩ := Rule.expect_eq_done.1 ht
    obtain ⟨rfl, rfl⟩ := Rule.pure_eq_done.1 hpure
    exact ⟨⟨t, hk⟩, trivial, rfl, rfl⟩
  complete {t rest} _ _ :=
    Rule.bind_eq_done.2 ⟨t.1, rest, Rule.expect_eq_done.2 ⟨t.2, rfl⟩, rfl⟩

theorem selectList_exact :
    Exact selectList (NotNext (·.isDelimiter ",")) Any Columns.tokens Columns.tree := by
  have hnames := columnName_exact.commaList fun _ _ => trivial
  apply Exact.node
  · constructor
    · intro ts trees rest h
      obtain ⟨star?, _, hstar, hrest⟩ := Rule.bind_eq_done.1 h
      cases star? with
      | some star =>
        obtain ⟨hs, rfl⟩ := Rule.accept_eq_done_some.1 hstar
        obtain ⟨rfl, rfl⟩ := Rule.pure_eq_done.1 hrest
        exact ⟨.all ⟨star, hs⟩, trivial, rfl, rfl⟩
      | none =>
        obtain ⟨rfl, -⟩ := Rule.accept_eq_done_none.1 hstar
        obtain ⟨names, -, rfl, rfl⟩ := hnames.sound hrest
        exact ⟨.only names, trivial, rfl, rfl⟩
    · intro c rest _ hrest
      cases c with
      | all star =>
        exact Rule.bind_eq_done.2 ⟨some star.1, rest, Rule.accept_eq_done_some.2 ⟨star.2, rfl⟩, rfl⟩
      | only names =>
        have hhead : NotNext (·.isOperator "*") (names.tokens (fun t : Name => [t.1]) ++ rest) := by
          simp [Listed.tokens]
        have hstar := Rule.accept_eq_done_none.2 ⟨rfl, hhead⟩
        refine Rule.bind_eq_done.2 ⟨none, _, hstar, ?_⟩
        exact hnames.complete (by simp) ⟨trivial, hrest⟩
  · intro c
    cases c with
    | all star => simp [Columns.tokens]
    | only names => simp [Columns.tokens, Listed.tokens]

theorem valueList_exact (room : Nat) :
    Exact (valueList room) (NotNext (·.isDelimiter ","))
      (fun l : Listed (Expression .term) => l.depth Expression.depth < room + 1)
      (Listed.tokens Expression.tokens) fun l =>
        Phrase.node .valueList (l.tokens Expression.tokens) (l.trees Expression.tree) := by
  have hlist := (term_exact room).commaList fun _ _ => trivial
  have hnode := hlist.node .valueList (Listed.tokens_ne_nil Expression.tokens_ne_nil)
  exact (hnode.mono_follow fun rest h => ⟨trivial, h⟩).map id (fun l => ⟨l, rfl⟩)
    (fun _ => Listed.depth_lt_iff) (fun _ => rfl) fun _ => rfl

theorem assignment_exact (room : Nat) :
    Exact (assignment room) Any (fun a => a.depth < room + 1) Assignment.tokens
      Assignment.tree := by
  have hseq : Exact (Rule.seq [Rule.identifier "column name",
      Rule.leaf .operator (·.isOperator "=") "'=' in assignment", Rule.one (term room)]) _ _ _ _ :=
    .seq_leaf <| .seq_leaf (term_exact room).one.seq_one
  refine (hseq.node .assignment (by simp)).map (fun x => ⟨x.1, x.2.1, x.2.2⟩)
    ?_ ?_ ?_ ?_
  · rintro ⟨target, sign, value⟩
    exact ⟨(target, sign, value), rfl⟩
  · intro x
    simp [Assignment.depth]
  · intro x
    rfl
  · intro x
    rfl

theorem assignmentList_exact (room : Nat) :
    Exact (assignmentList room) (NotNext (·.isDelimiter ","))
      (fun l : Listed Assignment => l.depth Assignment.depth < room + 1)
      (Listed.tokens Assignment.tokens) fun l =>
        Phrase.node .assignmentList (l.tokens Assignment.tokens) (l.trees Assignment.tree) := by
  have hlist := (assignment_exact room).commaList fun _ _ => trivial
  have hnode := hlist.node .assignmentList (Listed.tokens_ne_nil (by
    simp [Assignment.tokens]))
  exact (hnode.mono_follow fun rest h => ⟨trivial, h⟩).map id (fun l => ⟨l, rfl⟩)
    (fun _ => Listed.depth_lt_iff) (fun _ => rfl) fun _ => rfl

/-! ## Statements -/

/-- Nothing comes next that goes on with a statement, be it with a list or with a clause. -/
structure Halts (rest : List Token) : Prop extends Ends rest where
  comma : NotNext (·.isDelimiter ",") rest
  filter : NotNext (·.isKeyword "WHERE") rest
  order : NotNext (·.isKeyword "ORDER") rest
  direction : NotNext isDirection rest

theorem ends_of_mark {mark : String} (t : Mark mark) (rest : List Token) : Ends (t.1 :: rest) :=
  ⟨by simp [isRelational], by simp, by simp⟩

theorem halts_of_finish (t : Mark ";") (rest : List Token) : Halts (t.1 :: rest) :=
  ⟨ends_of_mark t rest, by simp, by simp, by simp, by simp [isDirection]⟩

/-- The parts of a statement in front of the `;` are a body. -/
abbrev ExactBody (s : Statement) (room : Nat) : Prop :=
  Exact (Rule.seq (s.parts room).dropLast) Halts (fun b : Body s => b.depth < room + 1) Body.tokens
    Body.trees

theorem create_exact (room : Nat) : ExactBody .create room := by
  have hseq : Exact (Rule.seq (Statement.parts room .create).dropLast) Any _ _ _ :=
    .seq_leaf <| .seq_leaf <| .seq_leaf <| fieldList_exact.one.seq_cons (Exact.leaf ..).seq_one
      fun t rest _ => by simp
  refine (hseq.mono_follow fun _ _ => trivial).map
    (fun x => .create x.1 x.2.1 x.2.2.1 x.2.2.2.1 x.2.2.2.2) ?_ ?_ ?_ ?_
  · intro body
    cases body with
    | create table name opening fields closing =>
      exact ⟨(table, name, opening, fields, closing), rfl⟩
  · intro x
    simp [Body.depth]
  · intro x
    rfl
  · intro x
    rfl

theorem insert_exact (room : Nat) : ExactBody .insert room := by
  have hseq : Exact (Rule.seq (Statement.parts room .insert).dropLast) Any _ _ _ :=
    .seq_leaf <| .seq_leaf <| .seq_leaf <| .seq_leaf <| (valueList_exact room).one.seq_cons
      (Exact.leaf ..).seq_one fun t rest _ => by simp
  refine (hseq.mono_follow fun _ _ => trivial).map
    (fun x => .insert x.1 x.2.1 x.2.2.1 x.2.2.2.1 x.2.2.2.2.1 x.2.2.2.2.2) ?_ ?_ ?_ ?_
  · intro body
    cases body with
    | insert into table word opening values closing =>
      exact ⟨(into, table, word, opening, values, closing), rfl⟩
  · intro x
    simp [Body.depth]
  · intro x
    rfl
  · intro x
    rfl

theorem filterTokens_notNext_comma (filter : Option WhereClause) {rest : List Token}
    (h : NotNext (·.isDelimiter ",") rest) :
    NotNext (·.isDelimiter ",") (Body.filterTokens filter ++ rest) := by
  cases filter with
  | none => exact h
  | some c => simp [Body.filterTokens, WhereClause.tokens]

theorem update_exact (room : Nat) : ExactBody .update room := by
  have hfilter := (optionalWhere_exact room).mono_follow fun rest (h : Halts rest) =>
    ⟨h.toEnds, h.filter⟩
  have hseq : Exact (Rule.seq (Statement.parts room .update).dropLast) Halts _ _ _ :=
    .seq_leaf <| .seq_leaf <| (assignmentList_exact room).one.seq_cons hfilter.seq_one
      fun f rest hrest => filterTokens_notNext_comma f hrest.comma
  refine hseq.map (fun x => .update x.1 x.2.1 x.2.2.1 x.2.2.2) ?_ ?_ ?_ ?_
  · intro body
    cases body with
    | update table set assignments filter => exact ⟨(table, set, assignments, filter), rfl⟩
  · intro x
    exact Nat.max_lt
  · intro x
    rfl
  · intro x
    rfl

theorem delete_exact (room : Nat) : ExactBody .delete room := by
  have hfilter := (optionalWhere_exact room).mono_follow fun rest (h : Halts rest) =>
    ⟨h.toEnds, h.filter⟩
  have hseq : Exact (Rule.seq (Statement.parts room .delete).dropLast) Halts _ _ _ :=
    .seq_leaf <| .seq_leaf hfilter.seq_one
  refine hseq.map (fun x => .delete x.1 x.2.1 x.2.2) ?_ ?_ ?_ ?_
  · intro body
    cases body with
    | delete source table filter => exact ⟨(source, table, filter), rfl⟩
  · intro x
    rfl
  · intro x
    rfl
  · intro x
    rfl

/-- What may come after the condition of a SELECT. -/
theorem orderTokens_follow_filter (order : Option OrderClause) {rest : List Token}
    (h : Halts rest) :
    Ends (Body.orderTokens order ++ rest) ∧
      NotNext (·.isKeyword "WHERE") (Body.orderTokens order ++ rest) := by
  cases order with
  | none => exact ⟨h.toEnds, h.filter⟩
  | some c =>
    have hl : isRelational c.lead.1 = false := not_relational_of_keyword c.lead.2 (by decide)
    exact ⟨⟨by simpa [Body.orderTokens, OrderClause.tokens] using hl,
      by simp [Body.orderTokens, OrderClause.tokens],
      by simp [Body.orderTokens, OrderClause.tokens]⟩,
      by simp [Body.orderTokens, OrderClause.tokens]⟩

theorem select_exact (room : Nat) : ExactBody .select room := by
  have horder := (optionalOrder_exact.mono_follow fun rest (h : Halts rest) =>
    ⟨h.direction, h.order⟩).seq_one
  have hfilter := (optionalWhere_exact room).seq_cons horder fun o rest hrest =>
    orderTokens_follow_filter o hrest
  have hseq : Exact (Rule.seq (Statement.parts room .select).dropLast) Halts _ _ _ :=
    selectList_exact.one.seq_cons (.seq_leaf <| .seq_leaf hfilter) fun x rest _ => by simp
  refine hseq.map (fun x => .select x.1 x.2.1 x.2.2.1 x.2.2.2.1 x.2.2.2.2) ?_ ?_ ?_ ?_
  · intro body
    cases body with
    | select columns source table filter order =>
      exact ⟨(columns, source, table, filter, order), rfl⟩
  · intro x
    simp [Body.depth]
  · intro x
    rfl
  · intro x
    rfl

theorem body_exact (s : Statement) (room : Nat) : ExactBody s room := by
  cases s with
  | create => exact create_exact room
  | select => exact select_exact room
  | insert => exact insert_exact room
  | update => exact update_exact room
  | delete => exact delete_exact room

/-- The parts of a statement are a body and the `;` after it. -/
theorem parts_exact (s : Statement) (room : Nat) :
    Exact (Rule.seq (s.parts room)) Any (fun x : Body s × Mark ";" => x.1.depth < room + 1)
      (fun x => x.1.tokens ++ [x.2.1]) fun x => x.1.trees ++ [Tree.leaf .delimiter x.2.1] := by
  rw [s.parts_eq_concat]
  have hfinish : Exact (Rule.seq [Rule.delimiter ";" s.ending]) Any Any
      (fun t : Mark ";" => [t.1]) _ := (Exact.leaf ..).seq_one
  have hparts := (body_exact s room).seq_append hfinish fun t rest _ => halts_of_finish t rest
  exact hparts.map id (fun x => ⟨x, rfl⟩) (by simp) (fun _ => rfl) fun _ => rfl

end SqlScript.Grammar
