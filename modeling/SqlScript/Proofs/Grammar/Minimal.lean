import Mathlib.Order.MinMax
import SqlScript.Proofs.Grammar.Phrase
import SqlScript.Proofs.Tree.Printing

/-!
The same phrase with as few parentheses as its tree allows: they stand only where an expression
binds less tightly than its place asks for. The phrase keeps its tree, its words are those that the
tree is printed with, and nothing in it lies deeper than before.
-/

namespace SqlScript.Phrase
open SqlScript.Grammar SqlScript.Text SqlScript.Tree

/-! ## Ranks -/

/-- The looser an expression of a rank binds, the higher. -/
def Rank.level : Rank → Nat
  | term => 0
  | comparison => 1
  | negation => 2
  | conjunction => 3
  | condition => 4

theorem Rank.level_le (r : Rank) : r.level ≤ condition.level := by
  cases r <;> decide

/-! ## Fitting -/

def opening : Mark "(" := ⟨⟨.delimiter, "(", .start⟩, rfl⟩

def closing : Mark ")" := ⟨⟨.delimiter, ")", .start⟩, rfl⟩

namespace Expression

/-- The rank of what stands inside all parentheses around the whole. -/
def outer : {r : Rank} → Expression r → Rank
  | _, atom _ => .term
  | _, group _ e _ => e.outer
  | _, ofTerm e => e.outer
  | _, compare .. => .comparison
  | _, ofComparison e => e.outer
  | _, not .. => .negation
  | _, ofNegation e => e.outer
  | _, and .. => .conjunction
  | _, ofConjunction e => e.outer
  | _, or .. => .condition

def asCondition : {r : Rank} → Expression r → Expression .condition
  | .term, e => ofConjunction (ofNegation (ofComparison (ofTerm e)))
  | .comparison, e => ofConjunction (ofNegation (ofComparison e))
  | .negation, e => ofConjunction (ofNegation e)
  | .conjunction, e => ofConjunction e
  | .condition, e => e

def asTerm : {r : Rank} → Expression r → Expression .term
  | .term, e => e
  | _, e => group opening e.asCondition closing

def asComparison : {r : Rank} → Expression r → Expression .comparison
  | .comparison, e => e
  | _, e => ofTerm e.asTerm

def asNegation : {r : Rank} → Expression r → Expression .negation
  | .negation, e => e
  | _, e => ofComparison e.asComparison

def asConjunction : {r : Rank} → Expression r → Expression .conjunction
  | .conjunction, e => e
  | _, e => ofNegation e.asNegation

/-- Puts an expression in a place of some rank, in parentheses if it binds less tightly. -/
def fit {r : Rank} (e : Expression r) : (place : Rank) → Expression place
  | .term => e.asTerm
  | .comparison => e.asComparison
  | .negation => e.asNegation
  | .conjunction => e.asConjunction
  | .condition => e.asCondition

variable {r : Rank}

theorem tree_fit (e : Expression r) (place : Rank) : (e.fit place).tree = e.tree := by
  cases place <;> cases r <;> rfl

theorem tokens_fit (e : Expression r) (place : Rank) :
    (e.fit place).tokens =
      if place.level < r.level then opening.1 :: (e.tokens ++ [closing.1]) else e.tokens := by
  cases place <;> cases r <;> rfl

/-- A place that an expression binds tightly enough for costs nothing, any other one level. -/
theorem depth_fit {e : Expression r} {bound : Nat} (h : e.depth ≤ bound) (place : Rank) :
    (e.fit place).depth ≤ bound + 1 ∧ (r.level ≤ place.level → (e.fit place).depth ≤ bound) := by
  have hfit : (e.fit place).depth = if place.level < r.level then e.depth + 1 else e.depth := by
    cases place <;> cases r <;> rfl
  rw [hfit]
  constructor
  · split <;> omega
  · intro hlevel
    rwa [if_neg (Nat.not_lt.2 hlevel)]

/-! ## Fewest parentheses -/

/-- The expression for a place of some rank, with parentheses only where they are needed. -/
def least : {r : Rank} → Expression r → (place : Rank) → Expression place
  | _, atom a, place => (atom a).fit place
  | _, group _ e _, place => e.least place
  | _, ofTerm e, place => e.least place
  | _, compare l op r, place => (compare (l.least .term) op (r.least .term)).fit place
  | _, ofComparison e, place => e.least place
  | _, not op e, place => (not op (e.least .negation)).fit place
  | _, ofNegation e, place => e.least place
  | _, and l op r, place => (and (l.least .conjunction) op (r.least .negation)).fit place
  | _, ofConjunction e, place => e.least place
  | _, or l op r, place => (or (l.least .condition) op (r.least .conjunction)).fit place

theorem tree_least (e : Expression r) (place : Rank) : (e.least place).tree = e.tree := by
  induction e generalizing place with
  | atom a => exact tree_fit ..
  | group _ _ _ ih | ofTerm _ ih | ofComparison _ ih | ofNegation _ ih | ofConjunction _ ih =>
    exact ih place
  | not op e ih => rw [least, tree_fit, tree, tree, ih]
  | compare l op r ihl ihr | and l op r ihl ihr | or l op r ihl ihr =>
    rw [least, tree_fit, tree, tree, ihl, ihr]

/-- Only where an expression binds less tightly than its place asks for is a level added. Whatever
stands in such a place stood in parentheses before, so nothing ends up deeper than it was. -/
theorem depth_least (e : Expression r) (place : Rank) :
    (e.least place).depth ≤ e.depth + 1 ∧
      (r.level ≤ place.level → (e.least place).depth ≤ e.depth) := by
  induction e generalizing place with
  | atom a => exact depth_fit (Nat.le_refl _) place
  | group _ inner _ ih =>
    -- what may be paid for new parentheses was paid for the old ones
    obtain ⟨hany, -⟩ := ih place
    exact ⟨Nat.le_succ_of_le hany, fun _ => hany⟩
  | ofTerm e ih | ofComparison e ih | ofNegation e ih | ofConjunction e ih =>
    obtain ⟨hany, hloose⟩ := ih place
    refine ⟨hany, fun hlevel => hloose ?_⟩
    simp only [Rank.level] at hlevel ⊢
    omega
  -- the operands are put in places that they had before, so the second half applies to them
  | not op e ih =>
    have he := (ih .negation).2 (Nat.le_refl _)
    exact depth_fit (Nat.succ_le_succ he) place
  | compare l op r ihl ihr =>
    have hl := (ihl .term).2 (Nat.le_refl _)
    have hr := (ihr .term).2 (Nat.le_refl _)
    exact depth_fit (max_le_max hl hr) place
  | and l op r ihl ihr =>
    have hl := (ihl .conjunction).2 (Nat.le_refl _)
    have hr := (ihr .negation).2 (Nat.le_refl _)
    exact depth_fit (max_le_max hl hr) place
  | or l op r ihl ihr =>
    have hl := (ihl .condition).2 (Nat.le_refl _)
    have hr := (ihr .conjunction).2 (Nat.le_refl _)
    exact depth_fit (max_le_max hl hr) place

/-! ## Words -/

/-- A comparison is no junction. -/
theorem text_relational_ne {op : Token} (h : isRelational op = true) {word : String}
    (hword : relationalOperators.contains word = false) : upper op.lexeme ≠ word := by
  rintro rfl
  rw [relational_of_isRelational h] at hword
  cases hword

theorem isCondition_binary (l : Tree) (op : Token) (r : Tree) (word : String) :
    (binary l op r).label.isCondition word = (upper op.lexeme == word) := rfl

/-- The label of its tree tells the rank of an expression, as far as parentheses hang on it. -/
theorem label_tree (e : Expression r) :
    e.tree.label.isCondition "OR" = decide (Rank.conjunction.level < e.outer.level) ∧
      (e.tree.label.isCondition "OR" || e.tree.label.isCondition "AND") =
        decide (Rank.negation.level < e.outer.level) ∧
      (e.tree.label.kind == .condition) = decide (Rank.term.level < e.outer.level) := by
  induction e with
  | atom a => cases a <;> exact ⟨rfl, rfl, rfl⟩
  | group _ _ _ ih | ofTerm _ ih | ofComparison _ ih | ofNegation _ ih | ofConjunction _ ih =>
    exact ih
  | not op e => exact ⟨rfl, rfl, rfl⟩
  | compare l op r =>
    have hor : upper op.1.lexeme ≠ "OR" := text_relational_ne op.2 rfl
    have hand : upper op.1.lexeme ≠ "AND" := text_relational_ne op.2 rfl
    rw [tree, isCondition_binary, isCondition_binary, beq_eq_false_iff_ne.2 hor,
      beq_eq_false_iff_ne.2 hand]
    exact ⟨rfl, rfl, rfl⟩
  | and l op r =>
    rw [tree, isCondition_binary, isCondition_binary, Keyword.text]
    exact ⟨rfl, rfl, rfl⟩
  | or l op r =>
    rw [tree, isCondition_binary, isCondition_binary, Keyword.text]
    exact ⟨rfl, rfl, rfl⟩

section

variable (leads : Bool) (e : Expression r) (op : Token) (left right : Tree)

theorem groups_compare (h : isRelational op = true) :
    (binary left op right).label.groups leads e.tree.label =
      decide (Rank.term.level < e.outer.level) := by
  have hor : upper op.lexeme ≠ "OR" := text_relational_ne h rfl
  have hand : upper op.lexeme ≠ "AND" := text_relational_ne h rfl
  have hnot : upper op.lexeme ≠ "NOT" := text_relational_ne h rfl
  rw [← (label_tree e).2.2]
  exact (if_neg hor).trans ((if_neg hand).trans (if_neg hnot))

theorem groups_negated :
    (negated op right).label.groups leads e.tree.label =
      decide (Rank.negation.level < e.outer.level) := by
  rw [← (label_tree e).2.1]
  rfl

theorem groups_and (h : upper op.lexeme = "AND") :
    (binary left op right).label.groups leads e.tree.label =
      decide ((if leads then Rank.conjunction else .negation).level < e.outer.level) := by
  have hlabel : (binary left op right).label.groups leads e.tree.label =
      (e.tree.label.isCondition "OR" || (!leads && e.tree.label.isCondition "AND")) := by
    simp only [binary, plain, label_node, h]
    rfl
  obtain ⟨hor, hand, -⟩ := label_tree e
  rw [hlabel]
  cases leads with
  | true => simpa using hor
  | false => simpa using hand

theorem groups_or (h : upper op.lexeme = "OR") :
    (binary left op right).label.groups leads e.tree.label =
      decide ((if leads then Rank.condition else .conjunction).level < e.outer.level) := by
  have hlabel : (binary left op right).label.groups leads e.tree.label =
      (!leads && e.tree.label.isCondition "OR") := by
    simp only [binary, plain, label_node, h]
    rfl
  rw [hlabel]
  cases leads with
  | true => exact (decide_eq_false (Nat.not_lt.2 e.outer.level_le)).symm
  | false => simpa using (label_tree e).1

end

/-- The words of an expression in a place of some rank. -/
def wordsAt (e : Expression r) (place : Rank) : List String :=
  bracketed (decide (place.level < e.outer.level)) e.tree.words

theorem lexemes_fit (e : Expression r) (place : Rank) :
    (e.fit place).tokens.map Token.lexeme =
      bracketed (decide (place.level < r.level)) (e.tokens.map Token.lexeme) := by
  rw [tokens_fit, bracketed]
  simp only [decide_eq_true_eq]
  split
  · rw [List.map_cons, List.map_append]
    rfl
  · rfl

theorem words_binary (left : Tree) (op : Token) (right : Tree) :
    (binary left op right).words =
      bracketed ((binary left op right).label.groups true left.label) left.words ++ op.lexeme ::
        bracketed ((binary left op right).label.groups false right.label) right.words := by
  rw [binary, words_plain rfl, wordsBelow, wordsBelow_leaf rfl, wordsBelow, wordsBelow,
    List.append_nil]
  rfl

theorem words_negated (op : Token) (t : Tree) :
    (negated op t).words =
      op.lexeme :: bracketed ((negated op t).label.groups false t.label) t.words := by
  rw [negated, words_plain rfl, wordsBelow_leaf rfl, wordsBelow, wordsBelow, List.append_nil]
  rfl

/-- The fewest parentheses are those that the tree is printed with. -/
theorem lexemes_least (e : Expression r) (place : Rank) :
    (e.least place).tokens.map Token.lexeme = e.wordsAt place := by
  induction e generalizing place with
  | atom a =>
    have hwords : a.tree.words = [a.token.lexeme] := by
      cases a <;> exact words_leaf rfl _
    rw [least, lexemes_fit, wordsAt, tree, hwords]
    rfl
  | group _ _ _ ih | ofTerm _ ih | ofComparison _ ih | ofNegation _ ih | ofConjunction _ ih =>
    exact ih place
  | not op e ih =>
    rw [least, lexemes_fit, wordsAt, tokens, List.map_cons, ih, tree, words_negated,
      groups_negated]
    rfl
  | compare l op r ihl ihr =>
    rw [least, lexemes_fit, wordsAt, tokens, List.map_append, List.map_cons, ihl, ihr, tree,
      words_binary, groups_compare _ _ _ _ _ op.2, groups_compare _ _ _ _ _ op.2]
    rfl
  | and l op r ihl ihr =>
    have hop := Keyword.text op
    rw [least, lexemes_fit, wordsAt, tokens, List.map_append, List.map_cons, ihl, ihr, tree,
      words_binary, groups_and _ _ _ _ _ hop, groups_and _ _ _ _ _ hop]
    rfl
  | or l op r ihl ihr =>
    have hop := Keyword.text op
    rw [least, lexemes_fit, wordsAt, tokens, List.map_append, List.map_cons, ihl, ihr, tree,
      words_binary, groups_or _ _ _ _ _ hop, groups_or _ _ _ _ _ hop]
    rfl

end Expression

/-! ## Tokens -/

/-- Nothing is new in the second list but parentheses, and nothing in it is an error. -/
def Reuses (ts us : List Token) : Prop :=
  ∀ u ∈ us, u ∈ ts ∧ u.kind ≠ .error ∨ u = opening.1 ∨ u = closing.1

namespace Reuses

variable {t : Token} {ts us ts' us' : List Token}

theorem nil : Reuses ts [] := nofun

theorem mono (h : Reuses ts us) (hts : ts ⊆ ts') : Reuses ts' us :=
  fun u hu => (h u hu).imp_left fun ⟨hmem, hk⟩ => ⟨hts hmem, hk⟩

theorem cons (ht : t.kind ≠ .error) (h : Reuses ts us) : Reuses (t :: ts) (t :: us) :=
  List.forall_mem_cons.2
    ⟨.inl ⟨List.mem_cons_self .., ht⟩, h.mono (List.subset_cons_self ..)⟩

theorem append (h : Reuses ts us) (h' : Reuses ts' us') : Reuses (ts ++ ts') (us ++ us') :=
  List.forall_mem_append.2
    ⟨h.mono (List.subset_append_left ..), h'.mono (List.subset_append_right ..)⟩

theorem bracket (h : Reuses ts us) : Reuses ts (opening.1 :: (us ++ [closing.1])) :=
  List.forall_mem_cons.2
    ⟨.inr (.inl rfl), List.forall_mem_append.2 ⟨h, by simp⟩⟩

end Reuses

theorem kind_ne_error_of_keyword {t : Token} {word : String} (h : t.isKeyword word = true) :
    t.kind ≠ .error := by
  have hk : t.kind = .keyword := Keyword.kind ⟨t, h⟩
  simp [hk]

theorem kind_ne_error_of_relational {t : Token} (h : isRelational t = true) : t.kind ≠ .error := by
  rcases Bool.or_eq_true_iff.1 h with h | h
  · have hk : t.kind = .operator := by simpa using (Bool.and_eq_true_iff.1 h).1
    simp [hk]
  · exact kind_ne_error_of_keyword h

namespace Expression

variable {r : Rank}

theorem fit_reuses {e : Expression r} {ts : List Token} (h : Reuses ts e.tokens) (place : Rank) :
    Reuses ts (e.fit place).tokens := by
  rw [tokens_fit]
  split
  · exact h.bracket
  · exact h

theorem least_reuses (e : Expression r) (place : Rank) :
    Reuses e.tokens (e.least place).tokens := by
  induction e generalizing place with
  | atom a =>
    have ha : a.token.kind ≠ .error := by
      cases a with
      | name t => simp [Atom.token]
      | number t | string t => simp [Atom.token, t.2]
      | null t => simp [Atom.token]
      | truth t =>
        exact (Bool.or_eq_true_iff.1 t.2).elim kind_ne_error_of_keyword kind_ne_error_of_keyword
    exact fit_reuses (.cons ha .nil) place
  | group l e r ih =>
    refine (ih place).mono ?_
    simp [tokens]
  | ofTerm _ ih | ofComparison _ ih | ofNegation _ ih | ofConjunction _ ih => exact ih place
  | not op e ih => exact fit_reuses (.cons (by simp) (ih _)) place
  | compare l op r ihl ihr =>
    exact fit_reuses ((ihl _).append (.cons (kind_ne_error_of_relational op.2) (ihr _))) place
  | and l op r ihl ihr | or l op r ihl ihr =>
    exact fit_reuses ((ihl _).append (.cons (by simp) (ihr _))) place

end Expression

end SqlScript.Phrase
