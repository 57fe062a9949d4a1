import SqlScript.Proofs.Grammar.Exact

/-!
The rules of expressions read exactly the expressions of their rank that have no more depth than
there is room. What follows an expression must not go on with it.
-/

namespace SqlScript.Grammar
open SqlScript.Phrase

/-- The rule reads exactly the expressions of a rank whose depth is below `bound`. -/
abbrev ExactBelow (r : Rank) (bound : Nat) (follow : List Token → Prop) (rule : Rule Tree) : Prop :=
  Exact rule follow (fun e : Expression r => e.depth < bound) Expression.tokens Expression.tree

/-- No sign or word comes next that goes on with a condition. -/
structure Ends (rest : List Token) : Prop where
  relational : NotNext isRelational rest
  and : NotNext (·.isKeyword "AND") rest
  or : NotNext (·.isKeyword "OR") rest

/-! ## Terms -/

theorem exists_atom_of_termLeaf? {t : Token} {leaf : Tree} (h : termLeaf? t = some leaf) :
    ∃ a : Atom, a.token = t ∧ a.tree = leaf := by
  obtain ⟨kind, hk, rfl⟩ := Option.map_eq_some_iff.1 h
  unfold termKind? at hk
  split at hk
  · rename_i ht
    cases hk
    exact ⟨.name ⟨t, by simpa using ht⟩, rfl, rfl⟩
  · rename_i ht
    cases hk
    exact ⟨.number ⟨t, ht⟩, rfl, rfl⟩
  · rename_i ht
    cases hk
    exact ⟨.string ⟨t, ht⟩, rfl, rfl⟩
  · split at hk
    · rename_i hn
      cases hk
      exact ⟨.null ⟨t, hn⟩, rfl, rfl⟩
    · split at hk
      · rename_i hb
        cases hk
        exact ⟨.truth ⟨t, hb⟩, rfl, rfl⟩
      · cases hk
  · cases hk

/-- The words of truth values are keywords. -/
theorem kind_of_truth {t : Token} (h : t.isKeyword "TRUE" || t.isKeyword "FALSE") :
    t.kind = .keyword := by
  rcases Bool.or_eq_true_iff.1 h with h | h
  · exact Keyword.kind ⟨t, h⟩
  · exact Keyword.kind ⟨t, h⟩

theorem truth_not_keyword {t : Token} {word : String}
    (h : t.isKeyword "TRUE" || t.isKeyword "FALSE") (hw : word ≠ "TRUE" ∧ word ≠ "FALSE") :
    t.isKeyword word = false := by
  rcases Bool.or_eq_true_iff.1 h with h | h
  · simpa using (Keyword.isKeyword ⟨t, h⟩ word).trans (by simpa using hw.1.symm)
  · simpa using (Keyword.isKeyword ⟨t, h⟩ word).trans (by simpa using hw.2.symm)

theorem termLeaf?_atom (a : Atom) : termLeaf? a.token = some a.tree := by
  cases a with
  | name t => simp [termLeaf?, termKind?, Atom.token, Atom.tree, Atom.kind]
  | number t =>
    obtain ⟨t, ht⟩ := t
    simp [termLeaf?, termKind?, Atom.token, Atom.tree, Atom.kind, ht]
  | string t =>
    obtain ⟨t, ht⟩ := t
    simp [termLeaf?, termKind?, Atom.token, Atom.tree, Atom.kind, ht]
  | null t => simp [termLeaf?, termKind?, Atom.token, Atom.tree, Atom.kind]
  | truth t =>
    obtain ⟨t, ht⟩ := t
    have hn : t.isKeyword "NULL" = false := truth_not_keyword ht (by decide)
    have hb := Bool.or_eq_true_iff.1 ht
    simp [termLeaf?, termKind?, Atom.token, Atom.tree, Atom.kind, kind_of_truth ht, hn, hb]

theorem termOver_exact {bound : Nat} {inner : Rule Tree}
    (hi : ExactBelow .condition bound Ends inner) :
    ExactBelow .term (bound + 1) Any (termOver fun _ => inner) where
  sound {ts tree rest} h := by
    obtain ⟨leaf?, _, ht, hrest⟩ := Rule.bind_eq_done.1 h
    cases leaf? with
    | some leaf =>
      obtain ⟨t, hl, rfl⟩ := Rule.take?_eq_done_some.1 ht
      obtain ⟨rfl, rfl⟩ := Rule.pure_eq_done.1 hrest
      obtain ⟨a, rfl, ha⟩ := exists_atom_of_termLeaf? hl
      exact ⟨.atom a, Nat.succ_pos _, rfl, ha.symm⟩
    | none =>
      obtain ⟨rfl, -⟩ := Rule.take?_eq_done_none.1 ht
      obtain ⟨l, _, hl, hinner⟩ := Rule.bind_eq_done.1 hrest
      obtain ⟨_, _, he, hright⟩ := Rule.bind_eq_done.1 hinner
      obtain ⟨r, _, hr, hpure⟩ := Rule.bind_eq_done.1 hright
      obtain ⟨hlp, rfl⟩ := Rule.expect_eq_done.1 hl
      obtain ⟨e, hd, rfl, rfl⟩ := hi.sound he
      obtain ⟨hrp, rfl⟩ := Rule.expect_eq_done.1 hr
      obtain ⟨rfl, rfl⟩ := Rule.pure_eq_done.1 hpure
      refine ⟨.group ⟨l, hlp⟩ e ⟨r, hrp⟩, Nat.succ_lt_succ hd, ?_, rfl⟩
      simp [Expression.tokens]
  complete {e rest} hd _ := by
    cases e with
    | atom a =>
      have ht : (Rule.take? termLeaf?).run (a.token :: rest) = .done (some a.tree) rest :=
        Rule.take?_eq_done_some.2 ⟨a.token, termLeaf?_atom a, rfl⟩
      exact Rule.bind_eq_done.2 ⟨_, rest, ht, rfl⟩
    | group l e r =>
      have hl : termLeaf? l.1 = none := by simp [termLeaf?, termKind?]
      have hends : Ends (r.1 :: rest) := ⟨by simp [isRelational], by simp, by simp⟩
      have he := hi.complete (a := e) (Nat.lt_of_succ_lt_succ hd) hends
      simp only [Expression.tokens, List.cons_append, List.append_assoc, List.nil_append,
        Expression.tree]
      refine Rule.bind_eq_done.2 ⟨none, _, Rule.take?_eq_done_none.2 ⟨rfl, by simpa using hl⟩, ?_⟩
      refine Rule.bind_eq_done.2 ⟨l.1, _, Rule.expect_eq_done.2 ⟨l.2, rfl⟩, ?_⟩
      refine Rule.bind_eq_done.2 ⟨_, _, he, ?_⟩
      exact Rule.bind_eq_done.2 ⟨r.1, _, Rule.expect_eq_done.2 ⟨r.2, rfl⟩, rfl⟩

theorem comparisonOver_exact {bound : Nat} {inner : Rule Tree}
    (hi : ExactBelow .condition bound Ends inner) :
    ExactBelow .comparison (bound + 1) (NotNext isRelational) (comparisonOver fun _ => inner) where
  sound {ts tree rest} h := by
    have ht := termOver_exact hi
    obtain ⟨_, _, hl, hsign⟩ := Rule.bind_eq_done.1 h
    obtain ⟨op?, _, ho, hright⟩ := Rule.bind_eq_done.1 hsign
    obtain ⟨l, hld, rfl, rfl⟩ := ht.sound hl
    cases op? with
    | none =>
      obtain ⟨rfl, -⟩ := Rule.accept_eq_done_none.1 ho
      obtain ⟨rfl, rfl⟩ := Rule.pure_eq_done.1 hright
      exact ⟨.ofTerm l, hld, rfl, rfl⟩
    | some op =>
      obtain ⟨hop, rfl⟩ := Rule.accept_eq_done_some.1 ho
      obtain ⟨_, _, hr, hpure⟩ := Rule.bind_eq_done.1 hright
      obtain ⟨r, hrd, rfl, rfl⟩ := ht.sound hr
      obtain ⟨rfl, rfl⟩ := Rule.pure_eq_done.1 hpure
      refine ⟨.compare l ⟨op, hop⟩ r, Nat.max_lt.2 ⟨hld, hrd⟩, ?_, rfl⟩
      simp [Expression.tokens]
  complete {e rest} hd hrest := by
    have ht := termOver_exact hi
    cases e with
    | ofTerm e =>
      refine Rule.bind_eq_done.2 ⟨_, _, ht.complete hd trivial, ?_⟩
      exact Rule.bind_eq_done.2 ⟨none, _, Rule.accept_eq_done_none.2 ⟨rfl, hrest⟩, rfl⟩
    | compare l op r =>
      obtain ⟨hld, hrd⟩ := Nat.max_lt.1 hd
      simp only [Expression.tokens, List.append_assoc, List.cons_append, Expression.tree]
      refine Rule.bind_eq_done.2 ⟨_, _, ht.complete hld trivial, ?_⟩
      refine Rule.bind_eq_done.2 ⟨some op.1, _, Rule.accept_eq_done_some.2 ⟨op.2, rfl⟩, ?_⟩
      exact Rule.bind_eq_done.2 ⟨_, _, ht.complete hrd trivial, rfl⟩

/-! ## Chains -/

/-- A chain of operands of rank `r` with tokens of a class between them is a phrase of rank `s`. -/
structure Chains (p : Token → Bool) (r s : Rank) where
  single : Expression r → Expression s
  more : Expression s → { t : Token // p t = true } → Expression r → Expression s
  tokens_single : ∀ e, (single e).tokens = e.tokens
  tree_single : ∀ e, (single e).tree = e.tree
  depth_single : ∀ e, (single e).depth = e.depth
  tokens_more : ∀ l op e, (more l op e).tokens = l.tokens ++ op.1 :: e.tokens
  tree_more : ∀ l op e, (more l op e).tree = binary l.tree op.1 e.tree
  depth_more : ∀ l op e, (more l op e).depth = max l.depth e.depth
  induct : ∀ {P : Expression s → Prop} (_single : ∀ e, P (single e))
    (_more : ∀ l op e, P l → P (more l op e)) (e), P e

def andChains : Chains (·.isKeyword "AND") .negation .conjunction where
  single := .ofNegation
  more := .and
  tokens_single _ := rfl
  tree_single _ := rfl
  depth_single _ := rfl
  tokens_more _ _ _ := rfl
  tree_more _ _ _ := rfl
  depth_more _ _ _ := rfl
  induct {P} hs hm :=
    let rec go : (e : Expression .conjunction) → P e
      | .ofNegation e => hs e
      | .and l op e => hm l op e (go l)
    go

def orChains : Chains (·.isKeyword "OR") .conjunction .condition where
  single := .ofConjunction
  more := .or
  tokens_single _ := rfl
  tree_single _ := rfl
  depth_single _ := rfl
  tokens_more _ _ _ := rfl
  tree_more _ _ _ := rfl
  depth_more _ _ _ := rfl
  induct {P} hs hm :=
    let rec go : (e : Expression .condition) → P e
      | .ofConjunction e => hs e
      | .or l op e => hm l op e (go l)
    go

section

variable {p : Token → Bool} {r s : Rank} {bound : Nat} {follow : List Token → Prop}
  {operand : Rule Tree}

theorem joinTail_sound (c : Chains p r s) (ho : ExactBelow r bound follow operand)
    {left : Expression s} (hl : left.depth < bound) {ts rest : List Token} {tree : Tree}
    (h : Rule.joinTail p binary operand left.tree ts = .done tree rest) :
    ∃ e : Expression s, e.depth < bound ∧ left.tokens ++ ts = e.tokens ++ rest ∧ tree = e.tree := by
  generalize ht : left.tree = start at h
  fun_induction Rule.joinTail p binary operand start ts generalizing left with
  | case1 =>
    cases h
    exact ⟨left, hl, rfl, ht.symm⟩
  | case2 start t ts hp _ mid hr ih =>
    obtain ⟨e, he, rfl, rfl⟩ := ho.sound hr
    subst ht
    have hd : (c.more left ⟨t, hp⟩ e).depth < bound := by
      rw [c.depth_more]
      exact Nat.max_lt.2 ⟨hl, he⟩
    obtain ⟨e', hd', hts, ht'⟩ := ih hd (c.tree_more ..) h
    refine ⟨e', hd', ?_, ht'⟩
    rw [← hts, c.tokens_more]
    simp
  | case3 => cases h
  | case4 =>
    cases h
    exact ⟨left, hl, rfl, ht.symm⟩

theorem joinTail_of_notNext {join : Tree → Token → Tree → Tree} {left : Tree} {rest : List Token}
    (h : NotNext p rest) : Rule.joinTail p join operand left rest = .done left rest := by
  cases rest with
  | nil => rw [Rule.joinTail]
  | cons t ts =>
    have ht : p t = false := NotNext.cons_iff.1 h
    simp [Rule.joinTail, ht]

theorem joinTail_cons {join : Tree → Token → Tree → Tree} {left right : Tree} {t : Token}
    {ts rest : List Token} (hp : p t = true) (h : operand.run ts = .done right rest) :
    Rule.joinTail p join operand left (t :: ts) =
      Rule.joinTail p join operand (join left t right) rest := by
  rw [Rule.joinTail]
  simp only [hp, if_true]
  split
  · rename_i hr
    rw [h] at hr
    cases hr
    rfl
  · rename_i hr
    rw [h] at hr
    cases hr

/-- Reading a chain comes to joining what follows it to its tree. The induction goes along the chain
from its end, so what follows may go on with the chain. -/
theorem joined_run_tokens (c : Chains p r s) (ho : ExactBelow r bound follow operand)
    (hp : ∀ t ts, p t = true → follow (t :: ts)) (e : Expression s) (hd : e.depth < bound)
    {rest : List Token} (hrest : follow rest) :
    (Rule.joined p binary operand).run (e.tokens ++ rest) =
      Rule.joinTail p binary operand e.tree rest := by
  induction e using c.induct generalizing rest with
  | _single e =>
    rw [c.depth_single] at hd
    have hr := ho.complete hd hrest
    rw [c.tokens_single, c.tree_single, Rule.joined, Rule.run_bind, hr]
    rfl
  | _more l op e ih =>
    rw [c.depth_more] at hd
    obtain ⟨hl, he⟩ := Nat.max_lt.1 hd
    rw [c.tokens_more, c.tree_more, List.append_assoc, List.cons_append,
      ih hl (hp _ _ op.2), joinTail_cons op.2 (ho.complete he hrest)]

theorem joined_exact (c : Chains p r s) (ho : ExactBelow r bound follow operand)
    (hp : ∀ t ts, p t = true → follow (t :: ts)) :
    ExactBelow s bound (fun rest => follow rest ∧ NotNext p rest)
      (Rule.joined p binary operand) where
  sound {ts tree rest} h := by
    obtain ⟨_, _, hf, htail⟩ := Rule.bind_eq_done.1 h
    obtain ⟨e, he, rfl, rfl⟩ := ho.sound hf
    rw [← c.depth_single] at he
    rw [← c.tree_single] at htail
    rw [← c.tokens_single]
    exact joinTail_sound c ho he htail
  complete {e rest} hd hrest := by
    rw [joined_run_tokens c ho hp e hd hrest.1, joinTail_of_notNext hrest.2]

end

/-- What joins two negations or two conjunctions is no sign of comparison. -/
theorem not_relational_of_keyword {t : Token} {word : String} (h : t.isKeyword word = true)
    (hw : word ≠ "LIKE") : isRelational t = false := by
  have hk : t.kind = .keyword := Keyword.kind ⟨t, h⟩
  have hl : t.isKeyword "LIKE" = false := by
    simpa using (Keyword.isKeyword ⟨t, h⟩ "LIKE").trans (by simpa using hw)
  simp [isRelational, hk, hl]

theorem conditionOver_exact {bound : Nat} {negation : Rule Tree}
    (hn : ExactBelow .negation bound (NotNext isRelational) negation) :
    ExactBelow .condition bound Ends (conditionOver negation) := by
  have hand := joined_exact andChains hn fun t ts ht =>
    NotNext.cons_iff.2 (not_relational_of_keyword ht (by decide))
  have hor := joined_exact orChains hand fun t ts ht =>
    ⟨NotNext.cons_iff.2 (not_relational_of_keyword ht (by decide)),
      NotNext.cons_iff.2 (by simpa using Keyword.isKeyword ⟨t, ht⟩ "AND")⟩
  exact hor.mono_follow fun rest h => ⟨⟨h.relational, h.and⟩, h.or⟩

/-! ## Negations -/

/-- A term, and so a comparison, does not begin with NOT. -/
theorem term_head_not (e : Expression .term) (rest : List Token) :
    NotNext (·.isKeyword "NOT") (e.tokens ++ rest) := by
  cases e with
  | group l e r => simp [Expression.tokens]
  | atom a =>
    cases a with
    | name t => simp [Expression.tokens, Atom.token]
    | number t =>
      obtain ⟨t, ht⟩ := t
      simp [Expression.tokens, Atom.token, ht]
    | string t =>
      obtain ⟨t, ht⟩ := t
      simp [Expression.tokens, Atom.token, ht]
    | null t => simp [Expression.tokens, Atom.token]
    | truth t =>
      obtain ⟨t, ht⟩ := t
      simpa [Expression.tokens, Atom.token] using truth_not_keyword ht (by decide)

theorem comparison_head_not (e : Expression .comparison) (rest : List Token) :
    NotNext (·.isKeyword "NOT") (e.tokens ++ rest) := by
  cases e with
  | ofTerm e => exact term_head_not e rest
  | compare l op r =>
    rw [Expression.tokens, List.append_assoc]
    exact term_head_not l _

theorem negationOver_exact {bound : Nat} {deeper : Rule Tree}
    (hd : ExactBelow .negation bound (NotNext isRelational) deeper) :
    ExactBelow .negation (bound + 1) (NotNext isRelational) (negationOver fun _ => deeper) where
  sound {ts tree rest} h := by
    obtain ⟨op?, _, ho, hrest⟩ := Rule.bind_eq_done.1 h
    cases op? with
    | some op =>
      obtain ⟨hop, rfl⟩ := Rule.accept_eq_done_some.1 ho
      obtain ⟨_, _, he, hpure⟩ := Rule.bind_eq_done.1 hrest
      obtain ⟨e, hed, rfl, rfl⟩ := hd.sound he
      obtain ⟨rfl, rfl⟩ := Rule.pure_eq_done.1 hpure
      exact ⟨.not ⟨op, hop⟩ e, Nat.succ_lt_succ hed, rfl, rfl⟩
    | none =>
      obtain ⟨rfl, -⟩ := Rule.accept_eq_done_none.1 ho
      obtain ⟨e, hed, hts, ht⟩ := (comparisonOver_exact (conditionOver_exact hd)).sound hrest
      exact ⟨.ofComparison e, hed, hts, ht⟩
  complete {e rest} hed hrest := by
    cases e with
    | not op e =>
      refine Rule.bind_eq_done.2 ⟨some op.1, _, Rule.accept_eq_done_some.2 ⟨op.2, rfl⟩, ?_⟩
      have he := hd.complete (a := e) (Nat.lt_of_succ_lt_succ hed) hrest
      exact Rule.bind_eq_done.2 ⟨_, _, he, rfl⟩
    | ofComparison e =>
      have hn := Rule.accept_eq_done_none.2 ⟨rfl, comparison_head_not e rest⟩
      refine Rule.bind_eq_done.2 ⟨none, _, hn, ?_⟩
      exact (comparisonOver_exact (conditionOver_exact hd)).complete (a := e) hed hrest

/-- A negation on the level below has less depth than there is room. -/
theorem deeperNegation_exact (room : Nat) :
    ExactBelow .negation room (NotNext isRelational) (deeperNegation room) := by
  induction room with
  | zero =>
    constructor
    · intro ts tree rest h
      cases h
    · intro e rest hd
      exact absurd hd (Nat.not_lt_zero _)
  | succ room ih =>
    rw [deeperNegation, negation_eq]
    exact negationOver_exact ih

theorem condition_exact (room : Nat) : ExactBelow .condition (room + 1) Ends (condition room) :=
  conditionOver_exact (deeperNegation_exact (room + 1))

theorem term_exact (room : Nat) : ExactBelow .term (room + 1) Any (term room) :=
  termOver_exact (conditionOver_exact (deeperNegation_exact room))

end SqlScript.Grammar
