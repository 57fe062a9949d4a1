import Mathlib.Data.List.Nodup
import SqlScript.Proofs.Grammar.Language
import SqlScript.Proofs.Tree.Lexical

/-!
The node of a statement, whole or given up: behind the word that opens it stand leaves and whole
clauses, the table's name and each clause at most once and in their order, and at the end the mark
of the failure, if there was one.
-/

namespace SqlScript

namespace Tree.Kind

/-- The kinds of children of which a statement has one at most: its table's name and its clauses. -/
def isSlot : Kind → Bool
  | identifier | fieldList | selectList | valueList | assignmentList | whereClause
  | orderClause => true
  | _ => false

/-- The kinds of nodes below a statement, but for the mark of a failure. -/
def isPart : Kind → Bool
  | program | error => false
  | kind => !kind.isStatement

theorem isPart_of_isLexical {kind : Kind} (h : kind.isLexical = true) : kind.isPart = true := by
  cases kind <;> first | rfl | cases h

end Tree.Kind

/-- The node has no mark. -/
def Tree.Label.Silent (l : Label) : Prop := l.dataType = none ∧ l.symbolRef = none

/-- No node of the tree has a mark. -/
def Tree.Unmarked (t : Tree) : Prop := ∀ u ∈ t.walk, u.label.Silent

namespace Phrase
open SqlScript.Text SqlScript.Grammar SqlScript.Tree

/-- What a part of a statement can be. -/
inductive Part : Tree → Prop where
  | leaf {kind : Kind} (h : kind.isLexical = true) (t : Token) : Part (Tree.leaf kind t)
  | fields (l : Listed FieldDefinition) :
      Part (node .fieldList (l.tokens FieldDefinition.tokens) (l.trees FieldDefinition.tree))
  | columns (c : Columns) : Part c.tree
  | values (l : Listed (Expression .term)) :
      Part (node .valueList (l.tokens Expression.tokens) (l.trees Expression.tree))
  | assignments (l : Listed Assignment) :
      Part (node .assignmentList (l.tokens Assignment.tokens) (l.trees Assignment.tree))
  | filter (w : WhereClause) : Part w.tree
  | order (o : OrderClause) : Part o.tree

/-- A list is made of the trees of its items and of commas. -/
theorem Listed.mem_trees {α : Type} {tree : α → Tree} {l : Listed α} {t : Tree}
    (h : t ∈ l.trees tree) : (∃ a, t = tree a) ∨ ∃ comma : Token, t = Tree.leaf .delimiter comma := by
  rcases List.mem_cons.1 h with rfl | h
  · exact .inl ⟨l.first, rfl⟩
  · obtain ⟨⟨comma, a⟩, -, ht⟩ := List.mem_flatMap.1 h
    rcases List.mem_cons.1 ht with rfl | ht
    · exact .inr ⟨comma.1, rfl⟩
    · exact .inl ⟨a, List.mem_singleton.1 ht⟩

/-! ## Labels inside a part -/

/-- The texts of conditions. -/
def conditionTexts : List String := "NOT" :: "AND" :: "OR" :: relationalOperators

/-- What holds of all labels in parts: leaves have the text of a token and conditions that of an
operator, and no other node has a text. -/
structure Common (P : Label → Prop) : Prop where
  leaf {kind : Kind} (h : kind.isLexical = true) (t : Token) : P (.plain kind t.lexeme t.place)
  clause {kind : Kind} (h : kind.isPart = true) (place : Place) : P (.plain kind "" place)
  condition {text : String} (h : text ∈ conditionTexts) (place : Place) :
    P (.plain .condition text place)

theorem every_plain {P : Label → Prop} {kind : Kind} {text : String} {place : Place}
    {children : List Tree} (hl : P (.plain kind text place))
    (h : ∀ c ∈ children, ∀ u ∈ c.walk, P u.label) :
    ∀ u ∈ (plain kind text place children).walk, P u.label := by
  intro u hu
  rw [walk_eq] at hu
  rcases List.mem_cons.1 hu with rfl | hu
  · exact hl
  · obtain ⟨c, hc, huc⟩ := List.mem_flatMap.1 hu
    exact h c hc u huc

namespace Common

variable {P : Label → Prop} (hP : Common P)
include hP

theorem every_leaf {kind : Kind} (hk : kind.isLexical = true) (t : Token) :
    ∀ u ∈ (Tree.leaf kind t).walk, P u.label :=
  every_plain (hP.leaf hk t) (by simp)

theorem every_node {kind : Kind} (hk : kind.isPart = true) {tokens : List Token}
    {children : List Tree} (h : ∀ c ∈ children, ∀ u ∈ c.walk, P u.label) :
    ∀ u ∈ (node kind tokens children).walk, P u.label :=
  every_plain (hP.clause hk _) h

theorem every_listed {α : Type} {tree : α → Tree} (h : ∀ a, ∀ u ∈ (tree a).walk, P u.label)
    (l : Listed α) : ∀ t ∈ l.trees tree, ∀ u ∈ t.walk, P u.label := by
  intro t ht
  rcases Listed.mem_trees ht with ⟨a, rfl⟩ | ⟨comma, rfl⟩
  · exact h a
  · exact hP.every_leaf rfl comma

theorem every_binary {l r : Tree} {op : Token} (hop : upper op.lexeme ∈ conditionTexts)
    (hl : ∀ u ∈ l.walk, P u.label) (hr : ∀ u ∈ r.walk, P u.label) :
    ∀ u ∈ (binary l op r).walk, P u.label := by
  refine every_plain (hP.condition hop _) ?_
  simpa using ⟨hl, hP.every_leaf rfl op, hr⟩

theorem every_expression {r : Rank} (e : Expression r) : ∀ u ∈ e.tree.walk, P u.label := by
  induction e with
  | atom a => cases a <;> exact hP.every_leaf rfl _
  | group _ _ _ ih | ofTerm _ ih | ofComparison _ ih | ofNegation _ ih | ofConjunction _ ih =>
    exact ih
  | not op _ ih =>
    refine every_plain (hP.condition (List.mem_cons_self ..) _) ?_
    simpa using ⟨hP.every_leaf rfl op.1, ih⟩
  | compare _ op _ ihl ihr =>
    have hop : upper op.1.lexeme ∈ relationalOperators :=
      List.contains_iff_mem.1 (relational_of_isRelational op.2)
    exact hP.every_binary (by simp [conditionTexts, hop]) ihl ihr
  | and _ op _ ihl ihr | or _ op _ ihl ihr =>
    exact hP.every_binary (by simp [conditionTexts, Keyword.text op]) ihl ihr

theorem every_keywords (ts : List Token) :
    ∀ t ∈ ts.map (Tree.leaf .keyword), ∀ u ∈ t.walk, P u.label := by
  intro t ht
  obtain ⟨u, -, rfl⟩ := List.mem_map.1 ht
  exact hP.every_leaf rfl u

theorem every_fieldDefinition (d : FieldDefinition) : ∀ u ∈ d.tree.walk, P u.label :=
  hP.every_node rfl <| List.forall_mem_cons.2 ⟨hP.every_leaf rfl _,
    List.forall_mem_cons.2 ⟨hP.every_leaf rfl _, hP.every_keywords d.keyTokens⟩⟩

theorem every_assignment (a : Assignment) : ∀ u ∈ a.tree.walk, P u.label :=
  hP.every_node rfl
    (by simpa using ⟨hP.every_leaf rfl _, hP.every_leaf rfl _, hP.every_expression a.value⟩)

theorem every_part {t : Tree} (h : Part t) : ∀ u ∈ t.walk, P u.label := by
  cases h with
  | leaf hk t => exact hP.every_leaf hk t
  | fields l => exact hP.every_node rfl (hP.every_listed hP.every_fieldDefinition l)
  | columns c =>
    cases c with
    | all star =>
      exact hP.every_node rfl (by simpa [Columns.trees] using hP.every_leaf rfl star.1)
    | only names =>
      exact hP.every_node rfl (hP.every_listed (fun t : Name => hP.every_leaf rfl t.1) names)
  | values l => exact hP.every_node rfl (hP.every_listed hP.every_expression l)
  | assignments l => exact hP.every_node rfl (hP.every_listed hP.every_assignment l)
  | filter w =>
    exact hP.every_node rfl
      (by simpa using ⟨hP.every_leaf rfl _, hP.every_expression w.condition⟩)
  | order o =>
    exact hP.every_node rfl <| List.forall_mem_cons.2 ⟨hP.every_leaf rfl _,
      List.forall_mem_cons.2 ⟨hP.every_leaf rfl _, List.forall_mem_cons.2
        ⟨hP.every_leaf rfl _, hP.every_keywords _⟩⟩⟩

end Common

/-! ## Kinds and marks inside a part -/

/-- Every node of the tree is of a kind that stands below statements, and has no mark. -/
def Inside (t : Tree) : Prop := ∀ u ∈ t.walk, u.kind.isPart = true ∧ u.label.Silent

theorem Inside.unmarked {t : Tree} (h : Inside t) : t.Unmarked := fun u hu => (h u hu).2

theorem common_inside : Common fun l => l.kind.isPart = true ∧ l.Silent where
  leaf h _ := ⟨Kind.isPart_of_isLexical h, rfl, rfl⟩
  clause h _ := ⟨h, rfl, rfl⟩
  condition _ _ := ⟨rfl, rfl, rfl⟩

theorem inside_expression {r : Rank} (e : Expression r) : Inside e.tree :=
  common_inside.every_expression e

theorem Part.inside {t : Tree} (h : Part t) : Inside t := common_inside.every_part h

end Phrase

namespace Grammar
open SqlScript.Phrase SqlScript.Tree

/-! ## Statements cut short -/

/-- The table's name and the clauses that a statement can have, in their order. -/
def Statement.slots : Statement → List Kind
  | create => [.identifier, .fieldList]
  | select => [.selectList, .identifier, .whereClause, .orderClause]
  | insert => [.identifier, .valueList]
  | update => [.identifier, .assignmentList, .whereClause]
  | delete => [.identifier, .whereClause]

theorem Statement.nodup_slots (s : Statement) : s.slots.Nodup := by
  cases s <;> decide

def slotKinds (trees : List Tree) : List Kind := (trees.map Tree.kind).filter Kind.isSlot

theorem slotKinds_append (a b : List Tree) : slotKinds (a ++ b) = slotKinds a ++ slotKinds b := by
  simp [slotKinds]

/-- The rule answers parts, and the slots among them are some of `kinds`, in their order. -/
def Yields (rule : Rule (List Tree)) (kinds : List Kind) : Prop :=
  ∀ ⦃ts trees rest⦄, rule.run ts = .done trees rest →
    (∀ t ∈ trees, Part t) ∧ (slotKinds trees).Sublist kinds

section

variable {α : Type} {follow : List Token → Prop} {ok : α → Prop} {write : α → List Token}
  {kinds : List Kind}

theorem Exact.yields {rule : Rule (List Tree)} {trees : α → List Tree}
    (h : Exact rule follow ok write trees) (hparts : ∀ a, ∀ t ∈ trees a, Part t)
    (hkinds : ∀ a, (slotKinds (trees a)).Sublist kinds) : Yields rule kinds := by
  intro ts b rest hr
  obtain ⟨a, -, -, rfl⟩ := h.sound hr
  exact ⟨hparts a, hkinds a⟩

theorem Exact.one_yields {rule : Rule Tree} {tree : α → Tree}
    (h : Exact rule follow ok write tree) (hpart : ∀ a, Part (tree a)) {kind : Kind}
    (hkind : ∀ a, (tree a).kind = kind) : Yields (Rule.one rule) [kind] := by
  refine h.one.yields (fun a => ?_) fun a => ?_
  · simpa using hpart a
  · rw [slotKinds, List.map_singleton, hkind]
    exact List.filter_sublist

end

theorem leaf_yields {kind : Kind} (hk : kind.isLexical = true) (hslot : kind.isSlot = false)
    (p : Token → Bool) (what : String) : Yields (Rule.leaf kind p what) [] := by
  refine (Exact.leaf kind p what).yields (fun t => ?_) fun t => ?_
  · simpa using Part.leaf hk t.1
  · simp [slotKinds, hslot]

theorem identifier_yields (what : String) : Yields (Rule.identifier what) [.identifier] := by
  refine (Exact.leaf .identifier _ what).yields (fun t => ?_) fun t => List.Sublist.refl _
  simpa using Part.leaf rfl t.1

theorem optionalWhere_yields (room : Nat) : Yields (optionalWhere room) [.whereClause] := by
  refine (optionalWhere_exact room).yields (fun filter t ht => ?_) fun filter => ?_
  · obtain ⟨w, -, rfl⟩ := List.mem_map.1 ht
    exact .filter w
  · cases filter with
    | none => exact List.nil_sublist _
    | some w => exact List.Sublist.refl _

theorem optionalOrder_yields : Yields optionalOrder [.orderClause] := by
  refine optionalOrder_exact.yields (fun order t ht => ?_) fun order => ?_
  · obtain ⟨o, -, rfl⟩ := List.mem_map.1 ht
    exact .order o
  · cases order with
    | none => exact List.nil_sublist _
    | some o => exact List.Sublist.refl _

theorem Statement.parts_yield (s : Statement) (room : Nat) :
    ∃ kinds, List.Forall₂ Yields (s.parts room) kinds ∧ kinds.flatten = s.slots := by
  cases s with
  | create =>
    have hfields := fieldList_exact.one_yields .fields fun _ => rfl
    exact ⟨[[], [.identifier], [], [.fieldList], [], []], .cons (leaf_yields rfl rfl _ _) <|
      .cons (identifier_yields _) <| .cons (leaf_yields rfl rfl _ _) <| .cons hfields <|
      .cons (leaf_yields rfl rfl _ _) <| .cons (leaf_yields rfl rfl _ _) .nil, rfl⟩
  | select =>
    have hcolumns := selectList_exact.one_yields .columns fun _ => rfl
    exact ⟨[[.selectList], [], [.identifier], [.whereClause], [.orderClause], []],
      .cons hcolumns <| .cons (leaf_yields rfl rfl _ _) <| .cons (identifier_yields _) <|
      .cons (optionalWhere_yields room) <| .cons optionalOrder_yields <|
      .cons (leaf_yields rfl rfl _ _) .nil, rfl⟩
  | insert =>
    have hvalues := (valueList_exact room).one_yields .values fun _ => rfl
    exact ⟨[[], [.identifier], [], [], [.valueList], [], []], .cons (leaf_yields rfl rfl _ _) <|
      .cons (identifier_yields _) <| .cons (leaf_yields rfl rfl _ _) <|
      .cons (leaf_yields rfl rfl _ _) <| .cons hvalues <| .cons (leaf_yields rfl rfl _ _) <|
      .cons (leaf_yields rfl rfl _ _) .nil, rfl⟩
  | update =>
    have hassignments := (assignmentList_exact room).one_yields .assignments fun _ => rfl
    exact ⟨[[.identifier], [], [.assignmentList], [.whereClause], []],
      .cons (identifier_yields _) <| .cons (leaf_yields rfl rfl _ _) <| .cons hassignments <|
      .cons (optionalWhere_yields room) <| .cons (leaf_yields rfl rfl _ _) .nil, rfl⟩
  | delete =>
    exact ⟨[[], [.identifier], [.whereClause], []], .cons (leaf_yields rfl rfl _ _) <|
      .cons (identifier_yields _) <| .cons (optionalWhere_yields room) <|
      .cons (leaf_yields rfl rfl _ _) .nil, rfl⟩

theorem Progress.run_yields {parts : List (Rule (List Tree))} {kinds : List (List Kind)}
    (h : List.Forall₂ Yields parts kinds) (ts : List Token) :
    (∀ t ∈ (Progress.run parts ts).trees, Part t) ∧
      (slotKinds (Progress.run parts ts).trees).Sublist kinds.flatten := by
  induction h generalizing ts with
  | nil => exact ⟨by simp [Progress.run], List.nil_sublist _⟩
  | @cons part own parts kinds hpart _ ih =>
    rw [Progress.run]
    cases hr : part.run ts with
    | refused why rest => exact ⟨by simp, List.nil_sublist _⟩
    | done trees rest =>
      obtain ⟨hparts, hkinds⟩ := hpart hr
      obtain ⟨hlater, hrest⟩ := ih rest
      refine ⟨List.forall_mem_append.2 ⟨hparts, hlater⟩, ?_⟩
      rw [slotKinds_append, List.flatten_cons]
      exact hkinds.append hrest

/-- The tree is the node of a statement, with the mark of a failure at the end if there is one. -/
structure Stated (s : Statement) (lead : Token) (parts : List Tree) (mark : Option Token)
    (t : Tree) : Prop where
  tree_eq : t = plain s.kind "" lead.place
    (leaf .keyword lead :: parts ++ mark.toList.map (leaf .error))
  part : ∀ c ∈ parts, Part c
  slots : (slotKinds parts).Sublist s.slots

theorem slotKinds_cons_of_not {t : Tree} (h : t.kind.isSlot = false) (ts : List Tree) :
    slotKinds (t :: ts) = slotKinds ts := by
  rw [slotKinds, List.map_cons, List.filter_cons_of_neg (by simp [h])]
  rfl

/-- Among the children of a statement there is one at most of each slot, and none of another
statement's. -/
theorem Stated.slotKinds_sublist {s : Statement} {lead : Token} {parts : List Tree}
    {mark : Option Token} {t : Tree} (h : Stated s lead parts mark t) :
    (slotKinds t.children).Sublist s.slots := by
  have hmark : slotKinds (mark.toList.map (leaf .error)) = [] := by
    cases mark <;> rfl
  have hchildren : t.children = leaf .keyword lead :: parts ++ mark.toList.map (leaf .error) := by
    rw [h.tree_eq]
    rfl
  rw [hchildren, List.cons_append, slotKinds_cons_of_not rfl, slotKinds_append, hmark,
    List.append_nil]
  exact h.slots

section

variable {s : Statement} {lead : Token} {parts : List Tree} {mark : Option Token} {t : Tree}

theorem Stated.child (h : Stated s lead parts mark t) :
    ∀ c ∈ t.children, Part c ∨ ∃ u, c = leaf .error u := by
  intro c hc
  rw [h.tree_eq] at hc
  rcases List.mem_append.1 hc with hc | hc
  · rcases List.mem_cons.1 hc with rfl | hc
    · exact .inl (.leaf rfl lead)
    · exact .inl (h.part c hc)
  · obtain ⟨u, -, rfl⟩ := List.mem_map.1 hc
    exact .inr ⟨u, rfl⟩

theorem Stated.kind_mem_slots (h : Stated s lead parts mark t) {c : Tree} (hc : c ∈ t.children)
    (hslot : c.kind.isSlot = true) : c.kind ∈ s.slots :=
  h.slotKinds_sublist.mem (List.mem_filter.2 ⟨List.mem_map_of_mem hc, hslot⟩)

theorem Stated.length_filter_le (h : Stated s lead parts mark t) {kind : Kind}
    (hslot : kind.isSlot = true) : (t.children.filter (·.kind == kind)).length ≤ 1 :=
  calc (t.children.filter (·.kind == kind)).length
    _ = (t.children.map Tree.kind).count kind := by
      rw [List.count, List.countP_map, List.countP_eq_length_filter]
      rfl
    _ = (slotKinds t.children).count kind := (List.count_filter hslot).symm
    _ ≤ s.slots.count kind := h.slotKinds_sublist.count_le kind
    _ ≤ 1 := List.nodup_iff_count_le_one.1 s.nodup_slots kind

/-- The child of a slot is the one that is found for it. -/
theorem Stated.exists_find?_eq (h : Stated s lead parts mark t) {c : Tree} (hc : c ∈ t.children)
    (hslot : c.kind.isSlot = true) : ∃ i, t.find? c.kind = some (i, c) := by
  refine Tree.exists_find?_eq ?_
  have hmem : c ∈ t.children.filter (·.kind == c.kind) := List.mem_filter.2 ⟨hc, by simp⟩
  have hlength := h.length_filter_le hslot
  rw [← List.head?_filter]
  revert hmem hlength
  cases t.children.filter (·.kind == c.kind) with
  | nil => exact nofun
  | cons d ds =>
    intro hmem hlength
    have hnil : ds = [] := by simpa using hlength
    subst hnil
    rw [List.mem_singleton.1 hmem]
    rfl

end

theorem Statement.attempt_stated (s : Statement) (room : Nat) (stop lead : Token)
    (ts : List Token) {t : Tree} (ht : (s.attempt room stop lead ts).tree = some t) :
    ∃ parts, Stated s lead parts (((s.attempt room stop lead ts).blame stop).map (·.token)) t := by
  obtain ⟨kinds, hyields, hslots⟩ := s.parts_yield room
  obtain ⟨hparts, hkinds⟩ := Progress.run_yields hyields ts
  rw [hslots] at hkinds
  cases ht
  refine ⟨(Progress.run (s.parts room) ts).trees, ?_, hparts, hkinds⟩
  simp only [Attempt.blame, Statement.attempt]
  cases (Progress.run (s.parts room) ts).complaint <;> rfl

/-- The tree of a round is what an attempt at a statement has built. -/
theorem exists_attempt {room : Nat} {stop : Token} {panic : Bool} {ts : List Token} {r : Round}
    (hr : r ∈ rounds room stop panic ts) {t : Tree} (ht : r.tree = some t) :
    ∃ (s : Statement) (lead : Token) (us : List Token), lead.isKeyword s.word = true ∧
      (s.attempt room stop lead us).tree = some t ∧
      r.blame = (s.attempt room stop lead us).blame stop := by
  fun_induction rounds room stop panic ts with
  | case1 => cases hr
  | case2 panic u ts a ih =>
    rcases List.mem_cons.1 hr with rfl | hr
    · simp only [a, statement] at ht ⊢
      cases hs : Statement.ofToken? u with
      | none =>
        rw [hs] at ht
        cases ht
      | some s =>
        rw [hs] at ht
        exact ⟨s, u, ts, Statement.ofToken?_eq_some.1 hs, ht, rfl⟩
    · exact ih hr

theorem round_stated {room : Nat} {stop : Token} {panic : Bool} {ts : List Token} {r : Round}
    (hr : r ∈ rounds room stop panic ts) {t : Tree} (ht : r.tree = some t) :
    ∃ s lead parts, Stated s lead parts (r.blame.map (·.token)) t := by
  obtain ⟨s, lead, us, -, hattempt, hblame⟩ := exists_attempt hr ht
  rw [hblame]
  exact ⟨s, lead, s.attempt_stated room stop lead us hattempt⟩

/-- Below a program there are statements only. -/
theorem exists_stated {tokens : List Token} {limit : Int} {t : Tree}
    (h : t ∈ (parse tokens limit).tree.children) :
    ∃ s lead parts mark, Stated s lead parts mark t := by
  rw [children_parse] at h
  obtain ⟨r, hr, ht⟩ := List.mem_filterMap.1 h
  obtain ⟨s, lead, parts, hstated⟩ := round_stated hr ht
  exact ⟨s, lead, parts, _, hstated⟩

end Grammar

end SqlScript
