import Mathlib.Data.List.Forall2
import Mathlib.Data.Option.Basic
import SqlScript.Proofs.Grammar.Reach
import SqlScript.Proofs.Grammar.Rounds
import SqlScript.Proofs.Tree.Map

/-!
What the parser makes of a token hangs on its kind and its upper-cased word only; lexeme and place
are copied into labels. So lists of tokens that agree in kinds and words give trees of one shape,
with labels that differ no more than those that the tokens give. Labels are compared by what two
functions make of them, one on either side. The words of errors do not matter: no rule takes one.
-/

namespace SqlScript
open SqlScript.Text SqlScript.Tree

variable {α β γ δ : Type} {f f' : Label → Label}

/-! ## Tokens and trees -/

/-- Tokens that no rule tells apart, and which give labels that are equal under `f` and `f'`. No
token is kept in a leaf that is a condition, and an error in none but the leaf that marks it. -/
structure Token.Alike (f f' : Label → Label) (t u : Token) : Prop where
  kind_eq : t.kind = u.kind
  upper_eq : t.kind ≠ .error → upper t.lexeme = upper u.lexeme
  lexeme_eq : t.kind = .operator ∨ t.kind = .delimiter → t.lexeme = u.lexeme
  leaf_eq : ∀ kind, kind ≠ .condition → (t.kind = .error → kind = .error) →
    f (.plain kind t.lexeme t.place) = f' (.plain kind u.lexeme u.place)
  node_eq : ∀ kind text, f (.plain kind text t.place) = f' (.plain kind text u.place)

namespace Token.Alike

variable {t u : Token}

/-- Tokens that read the same are alike where nodes at their places are. -/
theorem of_same (hkind : t.kind = u.kind) (hlexeme : t.lexeme = u.lexeme)
    (hnode : ∀ kind text, f (.plain kind text t.place) = f' (.plain kind text u.place)) :
    t.Alike f f' u where
  kind_eq := hkind
  upper_eq _ := by rw [hlexeme]
  lexeme_eq _ := hlexeme
  leaf_eq kind _ _ := by rw [hnode, hlexeme]
  node_eq := hnode

theorem refl (t : Token) : t.Alike f f t := of_same rfl rfl fun _ _ => rfl

theorem isKeyword_eq (h : t.Alike f f' u) (word : String) :
    t.isKeyword word = u.isKeyword word := by
  by_cases hk : t.kind = .keyword
  · rw [Token.isKeyword, Token.isKeyword, h.kind_eq, h.upper_eq (by simp [hk])]
  · have hk' : ¬ u.kind = .keyword := h.kind_eq ▸ hk
    rw [Phrase.isKeyword_of_kind_ne hk, Phrase.isKeyword_of_kind_ne hk']

theorem isDelimiter_eq (h : t.Alike f f' u) (mark : String) :
    t.isDelimiter mark = u.isDelimiter mark := by
  by_cases hk : t.kind = .delimiter
  · rw [Token.isDelimiter, Token.isDelimiter, h.kind_eq, h.lexeme_eq (.inr hk)]
  · have hk' : ¬ u.kind = .delimiter := h.kind_eq ▸ hk
    rw [Phrase.isDelimiter_of_kind_ne hk, Phrase.isDelimiter_of_kind_ne hk']

theorem isOperator_eq (h : t.Alike f f' u) (sign : String) :
    t.isOperator sign = u.isOperator sign := by
  by_cases hk : t.kind = .operator
  · rw [Token.isOperator, Token.isOperator, h.kind_eq, h.lexeme_eq (.inl hk)]
  · have hk' : ¬ u.kind = .operator := h.kind_eq ▸ hk
    rw [Phrase.isOperator_of_kind_ne hk, Phrase.isOperator_of_kind_ne hk']

end Token.Alike

/-- Such tokens as rules keep: they are no errors. -/
structure Token.Kept (f f' : Label → Label) (t u : Token) : Prop where
  alike : t.Alike f f' u
  not_error : t.kind ≠ .error

/-- A test that tells no such tokens apart, and that no error passes. -/
structure Token.Uniform (f f' : Label → Label) (p : Token → Bool) : Prop where
  eq : ∀ ⦃t u⦄, Token.Alike f f' t u → p t = p u
  not_error : ∀ ⦃t⦄, p t = true → t.kind ≠ .error

namespace Token.Uniform

theorem kept {p : Token → Bool} (hp : Uniform f f' p) {t u : Token} (h : t.Alike f f' u)
    (hu : p u = true) : t.Kept f f' u :=
  ⟨h, hp.not_error ((hp.eq h).trans hu)⟩

theorem isKeyword (word : String) : Uniform f f' (·.isKeyword word) where
  eq _ _ h := h.isKeyword_eq word
  not_error t ht hk := by simp [hk] at ht

theorem isDelimiter (mark : String) : Uniform f f' (·.isDelimiter mark) where
  eq _ _ h := h.isDelimiter_eq mark
  not_error t ht hk := by simp [hk] at ht

theorem isOperator (sign : String) : Uniform f f' (·.isOperator sign) where
  eq _ _ h := h.isOperator_eq sign
  not_error t ht hk := by simp [hk] at ht

theorem hasKind {kind : Token.Kind} (hkind : kind ≠ .error) : Uniform f f' (·.kind == kind) where
  eq _ _ h := congrArg (· == kind) h.kind_eq
  not_error _ ht hk := hkind ((eq_of_beq ht).symm.trans hk)

end Token.Uniform

namespace Tree

/-- The trees have one shape, and labels that are equal under `f` and `f'`. -/
def Alike (f f' : Label → Label) (a b : Tree) : Prop := a.map f = b.map f'

abbrev AllAlike (f f' : Label → Label) : List Tree → List Tree → Prop :=
  List.Forall₂ (Alike f f')

theorem Alike.plain {kind : Kind} {text text' : String} {place place' : Place}
    {as bs : List Tree}
    (hl : f (.plain kind text place) = f' (.plain kind text' place')) (h : AllAlike f f' as bs) :
    Alike f f' (plain kind text place as) (plain kind text' place' bs) := by
  have hmap : as.map (map f) = bs.map (map f') := by
    rwa [← List.forall₂_eq_eq_eq, List.forall₂_map_left_iff, List.forall₂_map_right_iff]
  rw [Alike, Tree.plain, Tree.plain, map, map, hl, mapAll_eq_map, mapAll_eq_map, hmap]

theorem Alike.leaf {t u : Token} (h : t.Kept f f' u) (kind : Kind) (hk : kind ≠ .condition) :
    Alike f f' (leaf kind t) (leaf kind u) :=
  .plain (h.alike.leaf_eq kind hk fun herror => absurd herror h.not_error) .nil

theorem Alike.mark {t u : Token} (h : t.Alike f f' u) :
    Alike f f' (Tree.leaf .error t) (Tree.leaf .error u) :=
  .plain (h.leaf_eq .error (by decide) fun _ => rfl) .nil

theorem Alike.single {a b : Tree} (h : Alike f f' a b) : AllAlike f f' [a] [b] := .cons h .nil

end Tree

/-! ## Rules -/

/-- Both replies are of one kind, and leave tokens that are alike. -/
inductive Reply.Alike (f f' : Label → Label) (R : α → β → Prop) : Reply α → Reply β → Prop where
  | done {a : α} {b : β} {ts us : List Token} (h : R a b)
      (hrest : List.Forall₂ (Token.Alike f f') ts us) : Alike f f' R (.done a ts) (.done b us)
  | refused {ts us : List Token} (why : Complaint) (hrest : List.Forall₂ (Token.Alike f f') ts us) :
      Alike f f' R (.refused why ts) (.refused why us)

theorem Reply.Alike.bind {R : α → β → Prop} {S : γ → δ → Prop} {x : Reply α} {y : Reply β}
    {g : α → List Token → Reply γ} {g' : β → List Token → Reply δ} (h : x.Alike f f' R y)
    (hg : ∀ a b us vs, x = .done a us → R a b → List.Forall₂ (Token.Alike f f') us vs →
      Reply.Alike f f' S (g a us) (g' b vs)) : Reply.Alike f f' S (x.bind g) (y.bind g') := by
  cases h with
  | done h hrest => exact hg _ _ _ _ rfl h hrest
  | refused why hrest => exact .refused why hrest

namespace Rule

/-- Tokens that are alike get replies that are. -/
def Alike (f f' : Label → Label) (R : α → β → Prop) (r : Rule α) (r' : Rule β) : Prop :=
  ∀ ⦃ts us⦄, List.Forall₂ (Token.Alike f f') ts us → Reply.Alike f f' R (r.run ts) (r'.run us)

/-- A tree is read that is like the one read from other tokens that are alike. -/
abbrev ReadsAlike (f f' : Label → Label) (r : Rule Tree) : Prop := Alike f f' (Tree.Alike f f') r r

abbrev ReadsAllAlike (f f' : Label → Label) (r : Rule (List Tree)) : Prop :=
  Alike f f' (AllAlike f f') r r

/-- The same where the next token is no error. -/
def AlikeFrom (f f' : Label → Label) (R : α → α → Prop) (r : Rule α) : Prop :=
  ∀ ⦃t u ts us⦄, t.Kept f f' u → List.Forall₂ (Token.Alike f f') ts us →
    Reply.Alike f f' R (r.run (t :: ts)) (r.run (u :: us))

/-- Trees that are alike are joined to trees that are. -/
def Joins (f f' : Label → Label) (join : Tree → Token → Tree → Tree) : Prop :=
  ∀ ⦃l l' t u r r'⦄, Tree.Alike f f' l l' → Token.Kept f f' t u → Tree.Alike f f' r r' →
    Tree.Alike f f' (join l t r) (join l' u r')

namespace Alike

variable {R : α → β → Prop} {S : γ → δ → Prop} {p : Token → Bool}

theorem pure {a : α} {b : β} (h : R a b) : Alike f f' R (Pure.pure a : Rule α) (Pure.pure b) :=
  fun _ _ hts => .done h hts

theorem refuse (why : Complaint) : Alike f f' R (Rule.refuse why : Rule α) (Rule.refuse why) :=
  fun _ _ hts => .refused why hts

theorem bind {r : Rule α} {r' : Rule β} {g : α → Rule γ} {g' : β → Rule δ} (hr : Alike f f' R r r')
    (hg : ∀ a b, R a b → Alike f f' S (g a) (g' b)) : Alike f f' S (r >>= g) (r' >>= g') := by
  intro ts us hts
  rw [run_bind, run_bind]
  exact (hr hts).bind fun a b _ _ _ h hrest => hg a b h hrest

theorem take? {g : Token → Option α} {g' : Token → Option β}
    (h : ∀ t u, t.Alike f f' u → Option.Rel R (g t) (g' u)) :
    Alike f f' (Option.Rel R) (Rule.take? g) (Rule.take? g') := by
  intro ts us hts
  cases hts with
  | nil => exact .done .none .nil
  | @cons t u ts us ht hts =>
    rw [run_take?_cons, run_take?_cons]
    have htu := h t u ht
    generalize g t = a at htu ⊢
    generalize g' u = b at htu ⊢
    cases htu with
    | some hab => exact .done (.some hab) hts
    | none => exact .done .none (.cons ht hts)

theorem accept (hp : Token.Uniform f f' p) :
    Alike f f' (Option.Rel (Token.Kept f f')) (Rule.accept p) (Rule.accept p) := by
  refine take? ?_
  intro t u h
  rw [Option.guard, Option.guard, hp.eq h]
  cases hu : p u with
  | true => exact .some (hp.kept h hu)
  | false => exact .none

theorem expect (hp : Token.Uniform f f' p) (what : String) :
    Alike f f' (Token.Kept f f') (Rule.expect p what) (Rule.expect p what) := by
  refine (accept hp).bind ?_
  rintro _ _ (h | _)
  · exact pure h
  · exact refuse _

theorem optional (hp : Token.Uniform f f' p) {r : Rule (List Tree)}
    (hr : AlikeFrom f f' (AllAlike f f') r) : ReadsAllAlike f f' (Rule.optional p r) := by
  intro ts us hts
  cases hts with
  | nil => exact .done .nil .nil
  | @cons t u ts us ht hts =>
    rw [Rule.optional, run_look, run_look, List.head?_cons, List.head?_cons, Option.any_some,
      Option.any_some, hp.eq ht]
    cases hu : p u with
    | true => exact hr (hp.kept ht hu) hts
    | false => exact .done .nil (.cons ht hts)

/-! ### Nodes -/

theorem leaf (kind : Kind) (hp : Token.Uniform f f' p) (what : String)
    (hk : kind ≠ .condition) : ReadsAllAlike f f' (Rule.leaf kind p what) :=
  (expect hp what).bind fun _ _ h => pure (Tree.Alike.leaf h kind hk).single

theorem keyword (word what : String) :
    ReadsAllAlike f f' (Rule.keyword word what) :=
  leaf _ (.isKeyword word) what (by decide)

theorem delimiter (mark what : String) :
    ReadsAllAlike f f' (Rule.delimiter mark what) :=
  leaf _ (.isDelimiter mark) what (by decide)

theorem identifier (what : String) :
    ReadsAllAlike f f' (Rule.identifier what) :=
  leaf _ (.hasKind (by decide)) what (by decide)

theorem node (kind : Kind) {r : Rule (List Tree)} (hr : NeedsToken r)
    (h : ReadsAllAlike f f' r) : ReadsAlike f f' (Rule.node kind r) := by
  intro ts us hts
  rw [run_node, run_node, Reply.map_eq_bind, Reply.map_eq_bind]
  cases hts with
  | nil =>
    obtain ⟨why, hnil⟩ := hr
    rw [hnil]
    exact .refused why .nil
  | cons ht hts =>
    exact (h (.cons ht hts)).bind fun _ _ _ _ _ h hrest =>
      .done (.plain (ht.node_eq kind "") h) hrest

theorem one {r : Rule Tree} (h : ReadsAlike f f' r) : ReadsAllAlike f f' (Rule.one r) :=
  h.bind fun _ _ h => pure h.single

theorem seq {rs : List (Rule (List Tree))} (h : ∀ r ∈ rs, ReadsAllAlike f f' r) :
    ReadsAllAlike f f' (Rule.seq rs) := by
  induction rs with
  | nil => exact pure .nil
  | cons r rs ih =>
    obtain ⟨hr, hrs⟩ := List.forall_mem_cons.1 h
    exact hr.bind fun _ _ h => (ih hrs).bind fun _ _ h' => pure (List.rel_append h h')

/-! ### Repetition -/

theorem commaTail {item : Rule Tree} (hitem : ReadsAlike f f' item) {ts us : List Token}
    (hts : List.Forall₂ (Token.Alike f f') ts us) :
    Reply.Alike f f' (AllAlike f f') (Rule.commaTail item ts) (Rule.commaTail item us) := by
  induction hn : ts.length using Nat.strongRecOn generalizing ts us with
  | _ n ih =>
    rw [commaTail_eq, run_bind, run_bind]
    refine (accept (.isDelimiter ",") hts).bind ?_
    rintro _ _ us vs hx (ht | _) hrest
    · obtain ⟨-, rfl⟩ := accept_eq_done_some.1 hx
      rw [run_bind, run_bind]
      refine (hitem hrest).bind ?_
      intro tree tree' mid mid' hm htree hmid
      have hlt := length_lt_of_done hn hm
      refine (ih _ hlt hmid rfl).bind ?_
      intro more more' _ _ _ hmore hrest'
      exact .done (.cons (.leaf ht .delimiter (by decide)) (.cons htree hmore)) hrest'
    · exact .done .nil hrest

theorem commaList {item : Rule Tree} (hitem : ReadsAlike f f' item) :
    ReadsAllAlike f f' (Rule.commaList item) := by
  have htail : ReadsAllAlike f f' ⟨Rule.commaTail item, commaTail_suffix item⟩ :=
    fun _ _ => hitem.commaTail
  exact hitem.bind fun _ _ h => htail.bind fun _ _ hs => pure (.cons h hs)

theorem joinTail {join : Tree → Token → Tree → Tree} {operand : Rule Tree}
    (hp : Token.Uniform f f' p) (hjoin : Joins f f' join) (hoperand : ReadsAlike f f' operand)
    {left left' : Tree} (hleft : Tree.Alike f f' left left') {ts us : List Token}
    (hts : List.Forall₂ (Token.Alike f f') ts us) :
    Reply.Alike f f' (Tree.Alike f f') (Rule.joinTail p join operand left ts)
      (Rule.joinTail p join operand left' us) := by
  induction hn : ts.length using Nat.strongRecOn generalizing left left' ts us with
  | _ n ih =>
    rw [joinTail_eq, joinTail_eq, run_bind, run_bind]
    refine (accept hp hts).bind ?_
    rintro _ _ us vs hx (ht | _) hrest
    · obtain ⟨-, rfl⟩ := accept_eq_done_some.1 hx
      rw [run_bind, run_bind]
      refine (hoperand hrest).bind ?_
      intro right right' mid mid' hm hright hmid
      have hlt := length_lt_of_done hn hm
      exact ih _ hlt (hjoin hleft ht hright) hmid rfl
    · exact .done hleft hrest

theorem joined {join : Tree → Token → Tree → Tree} {operand : Rule Tree}
    (hp : Token.Uniform f f' p) (hjoin : Joins f f' join) (hoperand : ReadsAlike f f' operand) :
    ReadsAlike f f' (Rule.joined p join operand) :=
  hoperand.bind fun _ _ hleft _ _ => joinTail hp hjoin hoperand hleft

end Alike

namespace AlikeFrom

/-- The word that opens a clause may be any but an error. -/
theorem opening : AlikeFrom f f' (AllAlike f f') Rule.opening :=
  fun _ _ _ _ ht hts => .done (Tree.Alike.leaf ht .keyword (by decide)).single hts

theorem seq {r : Rule (List Tree)} {rs : List (Rule (List Tree))}
    (hr : AlikeFrom f f' (AllAlike f f') r) (hrs : ∀ r ∈ rs, ReadsAllAlike f f' r) :
    AlikeFrom f f' (AllAlike f f') (Rule.seq (r :: rs)) := by
  intro t u ts us ht hts
  rw [Rule.seq, run_bind, run_bind]
  exact (hr ht hts).bind fun _ _ _ _ _ h hrest =>
    (Alike.seq hrs).bind (fun _ _ h' => .pure (List.rel_append h h')) hrest

/-- The clause has a place, since a token is left. -/
theorem clause (kind : Kind) {r : Rule (List Tree)} (h : AlikeFrom f f' (AllAlike f f') r) :
    AlikeFrom f f' (AllAlike f f') (Rule.one (Rule.node kind r)) := by
  intro t u ts us ht hts
  have hnode := (h ht hts).bind (S := Tree.Alike f f') fun _ _ _ _ _ htrees hrest =>
    .done (.plain (ht.alike.node_eq kind "") htrees) hrest
  rw [Rule.one, run_bind, run_bind, run_node, run_node, Reply.map_eq_bind, Reply.map_eq_bind]
  exact hnode.bind fun _ _ _ _ _ htree hrest => .done htree.single hrest

end AlikeFrom

end Rule

namespace Grammar
open Rule (ReadsAlike ReadsAllAlike)

/-! ## Conditions -/

theorem isRelational_uniform : Token.Uniform f f' isRelational where
  eq t u h := by
    by_cases hk : t.kind = .operator
    · rw [isRelational, isRelational, h.isKeyword_eq, h.kind_eq, h.lexeme_eq (.inl hk)]
    · have hk' : ¬ u.kind = .operator := h.kind_eq ▸ hk
      rw [isRelational, isRelational, h.isKeyword_eq, beq_eq_false_iff_ne.2 hk,
        beq_eq_false_iff_ne.2 hk', Bool.false_and, Bool.false_and]
  not_error t ht hk := by simp [isRelational, hk] at ht

theorem binary_alike : Rule.Joins f f' binary := by
  intro l l' t u r r' hl ht hr
  refine .plain ?_ (.cons hl (.cons (.leaf ht .operator (by decide)) hr.single))
  rw [ht.alike.upper_eq ht.not_error]
  exact ht.alike.node_eq _ _

theorem negated_alike {t u : Token} {a b : Tree} (ht : t.Kept f f' u) (h : Tree.Alike f f' a b) :
    Tree.Alike f f' (negated t a) (negated u b) :=
  .plain (ht.alike.node_eq _ _) (.cons (.leaf ht .operator (by decide)) h.single)

theorem ne_condition_of_termKind? {t : Token} {kind : Tree.Kind} (h : termKind? t = some kind) :
    kind ≠ .condition := by
  rintro rfl
  unfold termKind? at h
  split at h <;> try cases h
  split at h
  · cases h
  · split at h <;> cases h

theorem ne_error_of_termKind? {t : Token} {kind : Tree.Kind} (h : termKind? t = some kind) :
    t.kind ≠ .error := by
  intro hk
  simp [termKind?, hk] at h

theorem termLeaf?_alike (t u : Token) (h : t.Alike f f' u) :
    Option.Rel (Tree.Alike f f') (termLeaf? t) (termLeaf? u) := by
  have hkind : termKind? t = termKind? u := by
    rw [termKind?, termKind?, h.kind_eq, h.isKeyword_eq, h.isKeyword_eq, h.isKeyword_eq]
  rw [termLeaf?, termLeaf?, hkind]
  cases hk : termKind? u with
  | none => exact .none
  | some kind =>
    have hkept : t.Kept f f' u := ⟨h, ne_error_of_termKind? (hkind.trans hk)⟩
    exact .some (.leaf hkept kind (ne_condition_of_termKind? hk))

theorem termOver_alike {inner : Unit → Rule Tree} (h : ReadsAlike f f' (inner ())) :
    ReadsAlike f f' (termOver inner) := by
  refine (Rule.Alike.take? termLeaf?_alike).bind ?_
  rintro _ _ (hleaf | _)
  · exact .pure hleaf
  · refine (Rule.Alike.expect (.isDelimiter "(") _).bind fun _ _ _ => ?_
    refine h.bind fun _ _ htree => ?_
    exact (Rule.Alike.expect (.isDelimiter ")") _).bind fun _ _ _ => .pure htree

theorem comparisonOver_alike {inner : Unit → Rule Tree} (h : ReadsAlike f f' (inner ())) :
    ReadsAlike f f' (comparisonOver inner) := by
  refine (termOver_alike h).bind fun _ _ hleft => ?_
  refine (Rule.Alike.accept isRelational_uniform).bind ?_
  rintro _ _ (hop | _)
  · refine (termOver_alike h).bind fun _ _ hright => ?_
    exact .pure (binary_alike hleft hop hright)
  · exact .pure hleft

theorem conditionOver_alike {r : Rule Tree} (h : ReadsAlike f f' r) :
    ReadsAlike f f' (conditionOver r) :=
  .joined (.isKeyword "OR") binary_alike
    (.joined (.isKeyword "AND") binary_alike h)

theorem negationOver_alike {deeper : Unit → Rule Tree} (h : ReadsAlike f f' (deeper ())) :
    ReadsAlike f f' (negationOver deeper) := by
  refine (Rule.Alike.accept (.isKeyword "NOT")).bind ?_
  rintro _ _ (hop | _)
  · exact h.bind fun _ _ htree => .pure (negated_alike hop htree)
  · exact comparisonOver_alike (conditionOver_alike h)

theorem negation_alike (room : Nat) : ReadsAlike f f' (negation room) := by
  induction room with
  | zero => exact negationOver_alike (.refuse _)
  | succ room ih => exact negationOver_alike ih

theorem deeperNegation_alike (room : Nat) : ReadsAlike f f' (deeperNegation room) := by
  cases room with
  | zero => exact .refuse _
  | succ room => exact negation_alike room

theorem condition_alike (room : Nat) : ReadsAlike f f' (condition room) :=
  conditionOver_alike (negation_alike room)

theorem term_alike (room : Nat) : ReadsAlike f f' (term room) :=
  termOver_alike (conditionOver_alike (deeperNegation_alike room))

/-! ## Statements -/

theorem isTypeName_of_error {t : Token} (h : t.kind = .error) : isTypeName t = false := by
  simp [isTypeName, h]

theorem isTypeName_uniform : Token.Uniform f f' isTypeName where
  eq t u h := by
    by_cases hk : t.kind = .error
    · rw [isTypeName_of_error hk, isTypeName_of_error (h.kind_eq ▸ hk)]
    · rw [isTypeName, isTypeName, h.kind_eq, DataType.isColumnType, DataType.isColumnType,
        h.upper_eq hk]
  not_error t ht hk := by simp [isTypeName_of_error hk] at ht

theorem isDirection_uniform : Token.Uniform f f' isDirection where
  eq t u h := by rw [isDirection, isDirection, h.isKeyword_eq, h.isKeyword_eq]
  not_error t ht hk := by simp [isDirection, hk] at ht

theorem primaryKey_alike : ReadsAllAlike f f' primaryKey :=
  .optional (.isKeyword "PRIMARY") (.seq .opening (by simpa using .keyword _ _))

theorem fieldDefinition_alike : ReadsAlike f f' fieldDefinition := by
  refine .node _ ⟨_, rfl⟩ (.seq ?_)
  simpa using ⟨.identifier _, .leaf _ isTypeName_uniform _ (by decide), primaryKey_alike⟩

theorem columnName_alike : ReadsAlike f f' columnName :=
  (Rule.Alike.expect (.hasKind (by decide)) _).bind fun _ _ h => .pure (.leaf h _ (by decide))

theorem selectList_alike : ReadsAlike f f' selectList := by
  refine .node _ ⟨_, rfl⟩ ((Rule.Alike.accept (.isOperator "*")).bind ?_)
  rintro _ _ (hstar | _)
  · exact .pure (Tree.Alike.leaf hstar _ (by decide)).single
  · exact .commaList columnName_alike

theorem assignment_alike (room : Nat) : ReadsAlike f f' (assignment room) := by
  refine .node _ ⟨_, rfl⟩ (.seq ?_)
  simpa using ⟨.identifier _, .leaf _ (.isOperator "=") _ (by decide), .one (term_alike room)⟩

theorem optionalWhere_alike (room : Nat) : ReadsAllAlike f f' (optionalWhere room) := by
  refine .optional (.isKeyword "WHERE") (.clause _ (.seq .opening ?_))
  simpa using .one (condition_alike room)

theorem optionalOrder_alike : ReadsAllAlike f f' optionalOrder := by
  refine .optional (.isKeyword "ORDER") (.clause _ (.seq .opening ?_))
  simpa using ⟨.keyword _ _, .identifier _, .optional isDirection_uniform .opening⟩

theorem Statement.parts_alike (s : Statement) (room : Nat) :
    ∀ part ∈ s.parts room, ReadsAllAlike f f' part := by
  cases s <;> simp only [Statement.parts, List.forall_mem_cons, List.not_mem_nil, false_implies,
    implies_true, and_true]
  case create =>
    exact ⟨.keyword _ _, .identifier _, .delimiter _ _,
      .one (.node _ ⟨_, rfl⟩ (.commaList fieldDefinition_alike)), .delimiter _ _, .delimiter _ _⟩
  case select =>
    exact ⟨.one selectList_alike, .keyword _ _, .identifier _, optionalWhere_alike room,
      optionalOrder_alike, .delimiter _ _⟩
  case insert =>
    exact ⟨.keyword _ _, .identifier _, .keyword _ _, .delimiter _ _,
      .one (.node _ ⟨_, rfl⟩ (.commaList (term_alike room))), .delimiter _ _, .delimiter _ _⟩
  case update =>
    exact ⟨.identifier _, .keyword _ _,
      .one (.node _ ⟨_, rfl⟩ (.commaList (assignment_alike room))),
      optionalWhere_alike room, .delimiter _ _⟩
  case delete =>
    exact ⟨.keyword _ _, .identifier _, optionalWhere_alike room, .delimiter _ _⟩

structure Progress.Alike (f f' : Label → Label) (p q : Progress) : Prop where
  trees : AllAlike f f' p.trees q.trees
  complaint_eq : p.complaint = q.complaint
  rest : List.Forall₂ (Token.Alike f f') p.rest q.rest

theorem Progress.run_alike {parts : List (Rule (List Tree))}
    (h : ∀ part ∈ parts, ReadsAllAlike f f' part) {ts us : List Token}
    (hts : List.Forall₂ (Token.Alike f f') ts us) :
    (Progress.run parts ts).Alike f f' (Progress.run parts us) := by
  induction parts generalizing ts us with
  | nil => exact ⟨.nil, rfl, hts⟩
  | cons part parts ih =>
    obtain ⟨hpart, hparts⟩ := List.forall_mem_cons.1 h
    have hreply := hpart hts
    rw [Progress.run, Progress.run]
    generalize part.run ts = x at hreply ⊢
    generalize part.run us = y at hreply ⊢
    cases hreply with
    | done htrees hrest =>
      have hlater := ih hparts hrest
      exact ⟨List.rel_append htrees hlater.trees, hlater.complaint_eq, hlater.rest⟩
    | refused why hrest => exact ⟨.nil, rfl, hrest⟩

theorem current_alike {stop stop' : Token} (hstop : stop.Alike f f' stop') {ts us : List Token}
    (hts : List.Forall₂ (Token.Alike f f') ts us) :
    (current stop ts).Alike f f' (current stop' us) := by
  cases hts with
  | nil => exact hstop
  | cons ht _ => exact ht

structure Attempt.Alike (f f' : Label → Label) (a b : Attempt) : Prop where
  tree : Option.Rel (Tree.Alike f f') a.tree b.tree
  complaint_eq : a.complaint = b.complaint
  rest : List.Forall₂ (Token.Alike f f') a.rest b.rest

theorem Statement.ne_error_of_ofToken? {t : Token} {s : Statement}
    (h : Statement.ofToken? t = some s) : t.kind ≠ .error := by
  intro hk
  rw [Statement.ofToken?] at h
  have hkeyword := List.find?_some h
  simp [hk] at hkeyword

theorem Statement.ofToken?_alike {t u : Token} (h : t.Alike f f' u) :
    Statement.ofToken? t = Statement.ofToken? u := by
  rw [Statement.ofToken?, Statement.ofToken?]
  congr
  funext s
  exact h.isKeyword_eq s.word

theorem statement_alike (room : Nat) {stop stop' : Token} (hstop : stop.Alike f f' stop')
    {ts us : List Token} (hts : List.Forall₂ (Token.Alike f f') ts us) :
    (statement room stop ts).Alike f f' (statement room stop' us) := by
  cases hts with
  | nil => exact ⟨.none, rfl, .nil⟩
  | @cons t u ts us ht hts =>
    rw [statement, statement, Statement.ofToken?_alike ht]
    cases hlead : Statement.ofToken? u with
    | none => exact ⟨.none, rfl, .cons ht hts⟩
    | some s =>
      have hkept : t.Kept f f' u :=
        ⟨ht, Statement.ne_error_of_ofToken? ((Statement.ofToken?_alike ht).trans hlead)⟩
      have hp := Progress.run_alike (s.parts_alike room) hts
      refine ⟨.some (.plain (ht.node_eq _ _) ?_), hp.complaint_eq, hp.rest⟩
      refine List.rel_append (.cons (.leaf hkept .keyword (by decide)) hp.trees) ?_
      rw [hp.complaint_eq]
      cases (Progress.run (s.parts room) us).complaint with
      | none => exact .nil
      | some why => exact (Tree.Alike.mark (current_alike hstop hp.rest)).single

/-! ## Rounds -/

theorem recover_alike {ts us : List Token} (hts : List.Forall₂ (Token.Alike f f') ts us) :
    List.Forall₂ (Token.Alike f f') (recover ts) (recover us) := by
  induction hts with
  | nil => exact .nil
  | @cons t u ts us ht hts ih =>
    rw [recover, recover, Statement.isOpener_eq, Statement.isOpener_eq, Statement.ofToken?_alike ht,
      ht.isDelimiter_eq]
    split
    · exact .cons ht hts
    split
    · exact hts
    · exact ih

structure Blame.Alike (f f' : Label → Label) (b b' : Blame) : Prop where
  complaint_eq : b.complaint = b'.complaint
  token : b.token.Alike f f' b'.token

structure Round.Alike (f f' : Label → Label) (r r' : Round) : Prop where
  tree : Option.Rel (Tree.Alike f f') r.tree r'.tree
  blame : Option.Rel (Blame.Alike f f') r.blame r'.blame

theorem Attempt.Alike.blame {a b : Attempt} (h : a.Alike f f' b) {stop stop' : Token}
    (hstop : stop.Alike f f' stop') :
    Option.Rel (Blame.Alike f f') (a.blame stop) (b.blame stop') := by
  rw [Attempt.blame, Attempt.blame, h.complaint_eq]
  cases b.complaint with
  | none => exact .none
  | some why => exact .some ⟨rfl, current_alike hstop h.rest⟩

theorem Attempt.Alike.next {a b : Attempt} (h : a.Alike f f' b) (panic : Bool) :
    List.Forall₂ (Token.Alike f f') (a.next panic) (b.next panic) := by
  rw [Attempt.next, Attempt.next, h.complaint_eq]
  split
  · exact recover_alike h.rest
  · exact h.rest

theorem rounds_alike (room : Nat) {stop stop' : Token} (hstop : stop.Alike f f' stop')
    (panic : Bool) {ts us : List Token} (hts : List.Forall₂ (Token.Alike f f') ts us) :
    List.Forall₂ (Round.Alike f f') (rounds room stop panic ts) (rounds room stop' panic us) := by
  induction hn : ts.length using Nat.strongRecOn generalizing panic ts us with
  | _ n ih =>
    cases hts with
    | nil =>
      rw [rounds, rounds]
      exact .nil
    | @cons t u ts us ht hts =>
      have ha := statement_alike room hstop (.cons ht hts)
      have hlt := statement_next_length_lt room stop panic t ts
      rw [rounds, rounds]
      exact .cons ⟨ha.tree, ha.blame hstop⟩ (ih _ (hn ▸ hlt) false (ha.next panic) rfl)

/-! ## Whole parses -/

theorem isEnd_alike {t u : Token} (h : t.Alike f f' u) : isEnd t = isEnd u := by
  rw [isEnd, isEnd, h.kind_eq]

theorem before_alike {ts us : List Token} (hts : List.Forall₂ (Token.Alike f f') ts us) :
    List.Forall₂ (Token.Alike f f') (before ts) (before us) := by
  induction hts with
  | nil => exact .nil
  | @cons t u ts us ht hts ih =>
    rw [before, before, List.takeWhile_cons, List.takeWhile_cons, isEnd_alike ht]
    split
    · exact .cons ht ih
    · exact .nil

theorem getLast?_alike {ts us : List Token} (hts : List.Forall₂ (Token.Alike f f') ts us) :
    Option.Rel (Token.Alike f f') ts.getLast? us.getLast? := by
  rw [List.getLast?_eq_head?_reverse, List.getLast?_eq_head?_reverse]
  have hreverse := List.rel_reverse hts
  generalize ts.reverse = a at hreverse ⊢
  generalize us.reverse = b at hreverse ⊢
  cases hreverse with
  | nil => exact .none
  | cons ht _ => exact .some ht

/-- The end mark after no token at all stands at the start, on both sides. -/
abbrev StartAlike (f f' : Label → Label) : Prop := (endMark []).Alike f f' (endMark [])

theorem endMark_alike {ts us : List Token} (hts : List.Forall₂ (Token.Alike f f') ts us)
    (hnil : ts = [] → StartAlike f f') : (endMark ts).Alike f f' (endMark us) := by
  have hlast := getLast?_alike hts
  cases hts with
  | nil => exact hnil rfl
  | cons ht hts =>
    rw [endMark, endMark]
    generalize hl : List.getLast? (_ :: _) = a at hlast ⊢
    generalize List.getLast? (_ :: _) = b at hlast ⊢
    cases hlast with
    | none => simp at hl
    | some ht => exact .of_same rfl rfl ht.node_eq

theorem closed_alike {ts us : List Token} (hts : List.Forall₂ (Token.Alike f f') ts us)
    (hnil : ts = [] → StartAlike f f') :
    List.Forall₂ (Token.Alike f f') (closed ts) (closed us) := by
  have hany : ts.getLast?.any isEnd = us.getLast?.any isEnd := by
    have hlast := getLast?_alike hts
    generalize ts.getLast? = a at hlast ⊢
    generalize us.getLast? = b at hlast ⊢
    cases hlast with
    | none => rfl
    | some ht => exact isEnd_alike ht
  rw [closed, closed, hany]
  split
  · exact hts
  · exact List.rel_append hts (.cons (endMark_alike hts hnil) .nil)

theorem stopOf_alike {ts us : List Token} (hts : List.Forall₂ (Token.Alike f f') ts us)
    (hend : ∃ t ∈ ts, isEnd t = true) : (stopOf ts).Alike f f' (stopOf us) := by
  have hfind : Option.Rel (Token.Alike f f') (ts.find? isEnd) (us.find? isEnd) := by
    clear hend
    induction hts with
    | nil => exact .none
    | @cons t u ts us ht hts ih =>
      rw [List.find?_cons, List.find?_cons, isEnd_alike ht]
      split
      · exact .some ht
      · exact ih
  have hsome : (ts.find? isEnd).isSome := by simpa using hend
  rw [stopOf, stopOf]
  generalize ts.find? isEnd = a at hfind hsome ⊢
  generalize us.find? isEnd = b at hfind ⊢
  cases hfind with
  | none => cases hsome
  | some ht => exact ht

section

variable {tokens tokens' : List Token} (limit : Int)

/-- Tokens that are alike are read in rounds that are. -/
theorem roundsOf_alike (h : List.Forall₂ (Token.Alike f f') tokens tokens')
    (hnil : tokens = [] → StartAlike f f') :
    List.Forall₂ (Round.Alike f f') (roundsOf tokens limit) (roundsOf tokens' limit) :=
  rounds_alike _ (stopOf_alike (closed_alike h hnil) (exists_isEnd_closed tokens)) _
    (before_alike h)

theorem parse_alike (h : List.Forall₂ (Token.Alike f f') tokens tokens')
    (hnil : tokens = [] → StartAlike f f') :
    Tree.Alike f f' (parse tokens limit).tree (parse tokens' limit).tree := by
  have hclosed := closed_alike h hnil
  have hstop := stopOf_alike hclosed (exists_isEnd_closed tokens)
  have hcurrent := current_alike hstop (before_alike hclosed)
  have hrounds := rounds_alike (roomOf limit) hstop false (before_alike hclosed)
  exact .plain (hcurrent.node_eq _ _) (List.rel_filterMap (fun _ _ hr => hr.tree) hrounds)

/-- What changes no token's leaf and no node at a token's place does not change the parse. -/
theorem map_parse (h : ∀ t ∈ tokens, t.Alike f id t) (hne : tokens ≠ []) :
    (parse tokens limit).tree.map f = (parse tokens limit).tree := by
  have hparse := parse_alike limit (List.forall₂_same.2 h) fun hnil => absurd hnil hne
  rwa [Tree.Alike, map_id] at hparse

theorem parse_tree_alike (h : List.Forall₂ (Token.Alike f f) tokens tokens') :
    Tree.Alike f f (parse tokens limit).tree (parse tokens' limit).tree :=
  parse_alike limit h fun _ => .refl _

/-- What the rounds report of tokens that are alike. -/
theorem failures_alike {R : Diagnostic → Diagnostic → Prop}
    (hR : ∀ ⦃b b'⦄, Blame.Alike f f' b b' → R b.diagnostic b'.diagnostic)
    (h : List.Forall₂ (Token.Alike f f') tokens tokens') (hnil : tokens = [] → StartAlike f f') :
    List.Forall₂ R ((roundsOf tokens limit).filterMap Round.diagnostic?)
      ((roundsOf tokens' limit).filterMap Round.diagnostic?) := by
  refine List.rel_filterMap (fun r r' hr => ?_) (roundsOf_alike limit h hnil)
  obtain ⟨-, hblame⟩ := hr
  rw [Round.diagnostic?, Round.diagnostic?]
  generalize r.blame = a at hblame ⊢
  generalize r'.blame = b at hblame ⊢
  cases hblame with
  | none => exact .none
  | some hb => exact .some (hR hb)

theorem parse_whole_alike (h : List.Forall₂ (Token.Alike f f) tokens tokens')
    (hwhole : (parse tokens limit).diagnostics = []) :
    (parse tokens' limit).diagnostics = [] := by
  have hfailures := failures_alike (R := fun _ _ => True) limit (fun _ _ _ => trivial) h
    fun _ => .refl _
  rw [diagnostics_parse, recordAll_eq_nil_iff] at hwhole ⊢
  rw [hwhole.2, List.forall₂_nil_left_iff] at hfailures
  exact ⟨rfl, hfailures⟩

/-- A change of diagnostics that tells the places of failures apart. -/
def Separates (δ : Diagnostic → Diagnostic) (tokens : List Token) (limit : Int) : Prop :=
  ∀ d ∈ (roundsOf tokens limit).filterMap Round.diagnostic?,
    ∀ e ∈ (roundsOf tokens limit).filterMap Round.diagnostic?,
      (δ d).place = (δ e).place ↔ d.place = e.place

theorem Separates.map_diagnostics_parse {δ : Diagnostic → Diagnostic} {limit : Int}
    (h : Separates δ tokens limit) : (parse tokens limit).diagnostics.map δ =
      recordAll [] (((roundsOf tokens limit).filterMap Round.diagnostic?).map δ) := by
  rw [diagnostics_parse]
  exact recordAll_map h

/-- Changes that make the reports on tokens that are alike equal, and mix up no places, make the
diagnostics of the parses equal. -/
theorem diagnostics_parse_alike {δ δ' : Diagnostic → Diagnostic} {limit : Int}
    (hδ : ∀ ⦃b b'⦄, Blame.Alike f f' b b' → δ b.diagnostic = δ' b'.diagnostic)
    (hplaces : Separates δ tokens limit) (hplaces' : Separates δ' tokens' limit)
    (h : List.Forall₂ (Token.Alike f f') tokens tokens') (hnil : tokens = [] → StartAlike f f') :
    (parse tokens limit).diagnostics.map δ = (parse tokens' limit).diagnostics.map δ' := by
  have hfailures : ((roundsOf tokens limit).filterMap Round.diagnostic?).map δ =
      ((roundsOf tokens' limit).filterMap Round.diagnostic?).map δ' := by
    rw [← List.forall₂_eq_eq_eq, List.forall₂_map_left_iff, List.forall₂_map_right_iff]
    exact failures_alike limit hδ h hnil
  rw [hplaces.map_diagnostics_parse, hplaces'.map_diagnostics_parse, hfailures]

end

end Grammar

end SqlScript
