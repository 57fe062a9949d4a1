import Mathlib.Data.List.Flatten
import SqlScript.Proofs.Grammar.Language
import SqlScript.Proofs.Tree.Lexical

/-!
The tree is concrete: its leaves show tokens that were read, in their order and each once, whatever
is wrong with the rest. If nothing is wrong they are all tokens but for the parentheses that group
conditions.
-/

namespace SqlScript

namespace Phrase
open SqlScript.Grammar SqlScript.Tree

/-! ## Tokens that are kept -/

/-- The tokens of an expression without the parentheses that group it. -/
def Expression.kept : {r : Rank} → Expression r → List Token
  | _, atom a => [a.token]
  | _, group _ e _ => e.kept
  | _, ofTerm e => e.kept
  | _, compare l op r => l.kept ++ op.1 :: r.kept
  | _, ofComparison e => e.kept
  | _, not op e => op.1 :: e.kept
  | _, ofNegation e => e.kept
  | _, and l op r => l.kept ++ op.1 :: r.kept
  | _, ofConjunction e => e.kept
  | _, or l op r => l.kept ++ op.1 :: r.kept

def Assignment.kept (a : Assignment) : List Token := a.target.1 :: a.sign.1 :: a.value.kept

def WhereClause.kept (c : WhereClause) : List Token := c.lead.1 :: c.condition.kept

namespace Body

variable {s : Statement}

def filterKept (filter : Option WhereClause) : List Token := filter.toList.flatMap WhereClause.kept

/-- The tokens of a body without the parentheses that group conditions. -/
def kept : {s : Statement} → Body s → List Token
  | _, create table name opening fields closing =>
    (create table name opening fields closing).tokens
  | _, select columns source table filter order =>
    columns.tokens ++ source.1 :: table.1 :: (filterKept filter ++ orderTokens order)
  | _, insert into table word opening values closing =>
    into.1 :: table.1 :: word.1 :: opening.1 :: (values.tokens Expression.kept ++ [closing.1])
  | _, update table set assignments filter =>
    table.1 :: set.1 :: (assignments.tokens Assignment.kept ++ filterKept filter)
  | _, delete source table filter => source.1 :: table.1 :: filterKept filter

end Body

def Sentence.kept (s : Sentence) : List Token := s.lead.1 :: (s.body.kept ++ [s.finish.1])

/-! ## They are among the tokens -/

theorem Expression.kept_sublist {r : Rank} (e : Expression r) : e.kept.Sublist e.tokens := by
  induction e with
  | atom a => exact List.Sublist.refl _
  | group l e r ih => exact (ih.trans (List.sublist_append_left ..)).cons _
  | ofTerm _ ih | ofComparison _ ih | ofNegation _ ih | ofConjunction _ ih => exact ih
  | not op _ ih => exact ih.cons_cons _
  | compare _ op _ ihl ihr | and _ op _ ihl ihr | or _ op _ ihl ihr =>
    exact ihl.append (ihr.cons_cons _)

theorem Listed.tokens_sublist {α : Type} {kept write : α → List Token}
    (h : ∀ a, (kept a).Sublist (write a)) (l : Listed α) :
    (l.tokens kept).Sublist (l.tokens write) :=
  (h l.first).append (List.Sublist.flatMap_right _ fun m _ => (h m.2).cons_cons _)

theorem Assignment.kept_sublist (a : Assignment) : a.kept.Sublist a.tokens :=
  (a.value.kept_sublist.cons_cons _).cons_cons _

theorem Body.filterKept_sublist (filter : Option WhereClause) :
    (filterKept filter).Sublist (filterTokens filter) :=
  List.Sublist.flatMap_right _ fun c _ => c.condition.kept_sublist.cons_cons _

/-! ## They are what the tree shows -/

theorem Expression.spells {r : Rank} (e : Expression r) : Spells [e.tree] e.kept := by
  induction e with
  | atom a => cases a <;> exact .leaf rfl _
  | group _ _ _ ih | ofTerm _ ih | ofComparison _ ih | ofNegation _ ih | ofConjunction _ ih =>
    exact ih
  | not op _ ih => exact .node rfl _ _ (.leaf_cons rfl op.1 ih)
  | compare _ op _ ihl ihr | and _ op _ ihl ihr | or _ op _ ihl ihr =>
    exact .node rfl _ _ (ihl.cons (.leaf_cons rfl op.1 ihr))

theorem Listed.spells {α : Type} {tree : α → Tree} {kept : α → List Token}
    (h : ∀ a, Spells [tree a] (kept a)) (l : Listed α) : Spells (l.trees tree) (l.tokens kept) :=
  (h l.first).cons (.flatMap (fun m => .leaf_cons rfl m.1.1 (h m.2)) l.more)

theorem FieldDefinition.spells (d : FieldDefinition) : Spells [d.tree] d.tokens :=
  .node rfl _ _ (.leaf_cons rfl _ (.leaf_cons rfl _ (.leaves rfl _)))

theorem Columns.spells (c : Columns) : Spells [c.tree] c.tokens := by
  cases c with
  | all star => exact .node rfl _ _ (.leaf rfl _)
  | only names =>
    have hname (t : Name) : Spells [Tree.leaf .identifier t.1] [t.1] := .leaf rfl t.1
    exact .node rfl _ _ (names.spells hname)

theorem Assignment.spells (a : Assignment) : Spells [a.tree] a.kept :=
  .node rfl _ _ (.leaf_cons rfl _ (.leaf_cons rfl _ a.value.spells))

namespace Body

theorem filter_spells (filter : Option WhereClause) :
    Spells (filterTrees filter) (filterKept filter) := by
  cases filter with
  | none => exact .nil
  | some c =>
    have hc : Spells [c.tree] c.kept := .node rfl _ _ (.leaf_cons rfl _ c.condition.spells)
    exact hc.cons .nil

theorem order_spells (order : Option OrderClause) :
    Spells (orderTrees order) (orderTokens order) := by
  cases order with
  | none => exact .nil
  | some c =>
    have hc : Spells [c.tree] c.tokens :=
      .node rfl _ _ (.leaf_cons rfl _ (.leaf_cons rfl _ (.leaf_cons rfl _ (.leaves rfl _))))
    exact hc.cons .nil

theorem spells {s : Statement} (body : Body s) : Spells body.trees body.kept := by
  cases body with
  | create table name opening fields closing =>
    exact .leaf_cons rfl _ <| .leaf_cons rfl _ <| .leaf_cons rfl _ <|
      (Spells.node rfl _ _ (fields.spells FieldDefinition.spells)).cons (.leaf rfl _)
  | select columns source table filter order =>
    exact columns.spells.cons <| .leaf_cons rfl _ <| .leaf_cons rfl _ <|
      (filter_spells filter).append (order_spells order)
  | insert into table word opening values closing =>
    exact .leaf_cons rfl _ <| .leaf_cons rfl _ <| .leaf_cons rfl _ <| .leaf_cons rfl _ <|
      (Spells.node rfl _ _ (values.spells Expression.spells)).cons (.leaf rfl _)
  | update table set assignments filter =>
    exact .leaf_cons rfl _ <| .leaf_cons rfl _ <|
      (Spells.node rfl _ _ (assignments.spells Assignment.spells)).cons (filter_spells filter)
  | delete source table filter =>
    exact .leaf_cons rfl _ <| .leaf_cons rfl _ <| filter_spells filter

end Body

theorem isLexical_kind (s : Statement) : s.kind.isLexical = false := by
  cases s <;> rfl

theorem Sentence.spells (s : Sentence) : Spells [s.tree] s.kept :=
  .node (isLexical_kind s.statement) _ _ (.leaf_cons rfl _ (s.body.spells.append (.leaf rfl _)))

end Phrase

namespace Grammar
open SqlScript.Phrase SqlScript.Tree

/-! ## Rules -/

/-- The trees of an answer show tokens that the rule took. -/
def Faithful (rule : Rule (List Tree)) : Prop :=
  ∀ ⦃ts trees rest⦄, rule.run ts = .done trees rest →
    ∃ taken kept, ts = taken ++ rest ∧ kept.Sublist taken ∧ Spells trees kept

theorem Exact.faithful {α : Type} {rule : Rule (List Tree)} {follow : List Token → Prop}
    {ok : α → Prop} {write : α → List Token} {trees : α → List Tree}
    (h : Exact rule follow ok write trees) (kept : α → List Token)
    (hsub : ∀ a, (kept a).Sublist (write a)) (hspells : ∀ a, Spells (trees a) (kept a)) :
    Faithful rule := by
  intro ts b rest hr
  obtain ⟨a, -, rfl, rfl⟩ := h.sound hr
  exact ⟨write a, kept a, rfl, hsub a, hspells a⟩

theorem leaf_faithful {kind : Tree.Kind} (hk : kind.isLexical = true) (p : Token → Bool)
    (what : String) : Faithful (Rule.leaf kind p what) :=
  (Exact.leaf kind p what).faithful (fun t => [t.1]) (fun _ => List.Sublist.refl _)
    fun t => .leaf hk t.1

theorem optionalWhere_faithful (room : Nat) : Faithful (optionalWhere room) :=
  (optionalWhere_exact room).faithful _ Body.filterKept_sublist Body.filter_spells

theorem Statement.parts_faithful (s : Statement) (room : Nat) :
    ∀ part ∈ s.parts room, Faithful part := by
  cases s <;>
    simp only [Statement.parts, List.forall_mem_cons, List.not_mem_nil, false_implies,
      implies_true, and_true]
  case create =>
    have hfields := fieldList_exact.one.faithful _ (fun _ => List.Sublist.refl _) fun l =>
      .node rfl _ _ (l.spells FieldDefinition.spells)
    exact ⟨leaf_faithful rfl _ _, leaf_faithful rfl _ _, leaf_faithful rfl _ _, hfields,
      leaf_faithful rfl _ _, leaf_faithful rfl _ _⟩
  case select =>
    have hcolumns := selectList_exact.one.faithful _ (fun _ => List.Sublist.refl _) Columns.spells
    have horder := optionalOrder_exact.faithful _ (fun _ => List.Sublist.refl _) Body.order_spells
    exact ⟨hcolumns, leaf_faithful rfl _ _, leaf_faithful rfl _ _, optionalWhere_faithful room,
      horder, leaf_faithful rfl _ _⟩
  case insert =>
    have hvalues := (valueList_exact room).one.faithful _
      (Listed.tokens_sublist Expression.kept_sublist) fun l =>
        .node rfl _ _ (l.spells Expression.spells)
    exact ⟨leaf_faithful rfl _ _, leaf_faithful rfl _ _, leaf_faithful rfl _ _,
      leaf_faithful rfl _ _, hvalues, leaf_faithful rfl _ _, leaf_faithful rfl _ _⟩
  case update =>
    have hassignments := (assignmentList_exact room).one.faithful _
      (Listed.tokens_sublist Assignment.kept_sublist) fun l =>
        .node rfl _ _ (l.spells Assignment.spells)
    exact ⟨leaf_faithful rfl _ _, leaf_faithful rfl _ _, hassignments,
      optionalWhere_faithful room, leaf_faithful rfl _ _⟩
  case delete =>
    exact ⟨leaf_faithful rfl _ _, leaf_faithful rfl _ _, optionalWhere_faithful room,
      leaf_faithful rfl _ _⟩

/-! ## Statements that may fail -/

/-- What a part that was given up has read is not shown. -/
theorem Progress.run_spells {parts : List (Rule (List Tree))} (h : ∀ part ∈ parts, Faithful part)
    (ts : List Token) :
    ∃ taken kept, ts = taken ++ (Progress.run parts ts).rest ∧ kept.Sublist taken ∧
      Spells (Progress.run parts ts).trees kept := by
  induction parts generalizing ts with
  | nil => exact ⟨[], [], rfl, List.Sublist.refl _, .nil⟩
  | cons part parts ih =>
    rw [Progress.run]
    cases hr : part.run ts with
    | done trees mid =>
      obtain ⟨taken, kept, rfl, hsub, hspells⟩ := h part (List.mem_cons_self ..) hr
      obtain ⟨later, kept', hmid, hsub', hspells'⟩ :=
        ih (fun part' hp => h part' (List.mem_cons_of_mem _ hp)) mid
      refine ⟨taken ++ later, kept ++ kept', ?_, hsub.append hsub', hspells.append hspells'⟩
      rw [List.append_assoc, ← hmid]
    | refused why mid =>
      obtain ⟨taken, hts⟩ := part.suffix ts
      rw [hr] at hts
      exact ⟨taken, [], hts.symm, List.nil_sublist _, .nil⟩

theorem statement_spells (room : Nat) (stop : Token) (ts : List Token) :
    ∃ taken kept, ts = taken ++ (statement room stop ts).rest ∧ kept.Sublist taken ∧
      Spells (statement room stop ts).tree.toList kept := by
  cases ts with
  | nil => exact ⟨[], [], rfl, List.Sublist.refl _, .nil⟩
  | cons t ts =>
    rw [statement]
    cases hs : Statement.ofToken? t with
    | none => exact ⟨[], [], rfl, List.Sublist.refl _, .nil⟩
    | some s =>
      obtain ⟨taken, kept, hts, hsub, hspells⟩ := Progress.run_spells (s.parts_faithful room) ts
      refine ⟨t :: taken, t :: kept, ?_, hsub.cons_cons t, ?_⟩
      · exact congrArg (t :: ·) hts
      · simp only [Statement.attempt, Option.toList]
        refine .node (isLexical_kind s) _ _ (.leaf_cons rfl t ?_)
        -- the mark of a failure is no token's leaf
        cases (Progress.run (s.parts room) ts).complaint with
        | none => simpa using hspells
        | some why => simpa using hspells.append (.mark _)

/-! ## Scripts -/

theorem rounds_spells (room : Nat) (stop : Token) (panic : Bool) (ts : List Token) :
    ∃ kept, kept.Sublist ts ∧
      Spells ((rounds room stop panic ts).filterMap (·.tree)) kept := by
  fun_induction rounds room stop panic ts with
  | case1 => exact ⟨[], List.Sublist.refl _, .nil⟩
  | case2 panic t ts a ih =>
    obtain ⟨taken, kept, hts, hsub, hspells⟩ := statement_spells room stop (t :: ts)
    obtain ⟨kept', hsub', hspells'⟩ := ih
    refine ⟨kept ++ kept', ?_, ?_⟩
    · rw [hts]
      exact hsub.append (hsub'.trans (a.next_suffix panic).sublist)
    · have hall := hspells.append hspells'
      rw [List.filterMap_cons]
      cases htree : a.tree with
      | none => simpa [a, htree] using hall
      | some tree => simpa [a, htree] using hall

theorem lexical_parse (tokens : List Token) (limit : Int) :
    (parse tokens limit).tree.lexical = (parse tokens limit).tree.children.flatMap lexical :=
  lexical_plain rfl ..

theorem exists_kept (tokens : List Token) (limit : Int) :
    ∃ kept, kept.Sublist (before tokens) ∧
      List.Forall₂ Shows (parse tokens limit).tree.lexical kept := by
  rw [lexical_parse, children_parse]
  exact rounds_spells (roomOf limit) (stopOf (closed tokens)) false (before tokens)

/-- The leaves of a parse show some of the tokens, each once and in their order. Where nothing is
wrong the tokens are a script, and the leaves show all of it but the parentheses that group. -/
theorem parse_spells (tokens : List Token) (limit : Int) :
    (∃ kept, kept.Sublist (before tokens) ∧
        List.Forall₂ Shows (parse tokens limit).tree.lexical kept) ∧
      ((parse tokens limit).diagnostics = [] →
        (∃ script, Reads tokens limit script) ∧
          ∀ script, Reads tokens limit script →
            List.Forall₂ Shows (parse tokens limit).tree.lexical
              (script.flatMap Sentence.kept)) := by
  refine ⟨exists_kept tokens limit, fun h => ⟨exists_reads h, fun script hscript => ?_⟩⟩
  rw [lexical_parse, (parse_of_reads hscript).1, List.map_eq_flatMap]
  exact Spells.flatMap Sentence.spells script

end Grammar

end SqlScript
