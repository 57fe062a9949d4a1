import SqlScript.Proofs.Grammar.Inversion

/-!
Rules that read exactly a class of phrases: every answer is the value of a phrase, which is what the
rule took, and every phrase is read where what follows cannot go on with it. One statement for each
way to build a rule.
-/

namespace SqlScript.Grammar
open SqlScript.Phrase

variable {α β γ δ : Type}

structure Exact (rule : Rule β) (follow : List Token → Prop) (ok : α → Prop)
    (write : α → List Token) (value : α → β) : Prop where
  sound : ∀ {ts b rest}, rule.run ts = .done b rest → ∃ a, ok a ∧ ts = write a ++ rest ∧ b = value a
  complete : ∀ {a rest}, ok a → follow rest → rule.run (write a ++ rest) = .done (value a) rest

/-- Nothing is asked of what follows, or of a phrase. -/
abbrev Any : α → Prop := fun _ => True

/-- The next token, if there is one, is not of a class. -/
def NotNext (p : Token → Bool) (rest : List Token) : Prop := ∀ t ∈ rest.head?, p t = false

@[simp] theorem NotNext.nil (p : Token → Bool) : NotNext p [] := by
  simp [NotNext]

@[simp] theorem NotNext.cons_iff {p : Token → Bool} {t : Token} {ts : List Token} :
    NotNext p (t :: ts) ↔ p t = false := by
  simp [NotNext]

namespace Exact

variable {rule : Rule β} {follow : List Token → Prop} {ok : α → Prop} {write : α → List Token}
  {value : α → β}

/-- Renames phrases; `f` has to reach all new ones. -/
theorem map {ok' : γ → Prop} {write' : γ → List Token} {value' : γ → β}
    (h : Exact rule follow ok write value) (f : α → γ) (hf : ∀ c, ∃ a, f a = c)
    (hok : ∀ a, ok' (f a) ↔ ok a) (hw : ∀ a, write' (f a) = write a)
    (hv : ∀ a, value' (f a) = value a) :
    Exact rule follow ok' write' value' where
  sound hr := by
    obtain ⟨a, ha, rfl, rfl⟩ := h.sound hr
    exact ⟨f a, (hok a).2 ha, by rw [hw], (hv a).symm⟩
  complete {c rest} hc hrest := by
    obtain ⟨a, rfl⟩ := hf c
    rw [hw, hv]
    exact h.complete ((hok a).1 hc) hrest

theorem congr (rule' : Rule β) (h : Exact rule follow ok write value)
    (hr : ∀ ts, rule'.run ts = rule.run ts) : Exact rule' follow ok write value where
  sound hd := h.sound (hr _ ▸ hd)
  complete ha hrest := (hr _).trans (h.complete ha hrest)

theorem mono_follow {follow' : List Token → Prop} (h : Exact rule follow ok write value)
    (hf : ∀ rest, follow' rest → follow rest) : Exact rule follow' ok write value where
  sound := h.sound
  complete hok hrest := h.complete hok (hf _ hrest)

theorem leaf (kind : Tree.Kind) (p : Token → Bool) (what : String) :
    Exact (Rule.leaf kind p what) Any Any (fun t : { t : Token // p t = true } => [t.1])
      fun t => [Tree.leaf kind t.1] where
  sound h := by
    obtain ⟨t, ht, rfl, rfl⟩ := Rule.leaf_eq_done.1 h
    exact ⟨⟨t, ht⟩, trivial, rfl, rfl⟩
  complete {t rest} _ _ := Rule.leaf_eq_done.2 ⟨t.1, t.2, rfl, rfl⟩

theorem one {rule : Rule Tree} {value : α → Tree} (h : Exact rule follow ok write value) :
    Exact (Rule.one rule) follow ok write fun a => [value a] where
  sound hr := by
    obtain ⟨t, ht, rfl⟩ := Rule.one_eq_done.1 hr
    obtain ⟨a, ha, hts, rfl⟩ := h.sound ht
    exact ⟨a, ha, hts, rfl⟩
  complete ha hrest := Rule.one_eq_done.2 ⟨_, h.complete ha hrest, rfl⟩

theorem seq_one {r : Rule (List Tree)} {trees : α → List Tree} (h : Exact r follow ok write trees) :
    Exact (Rule.seq [r]) follow ok write trees where
  sound hr := by
    obtain ⟨_, _, _, hfirst, hnil, rfl⟩ := Rule.seq_cons_eq_done.1 hr
    obtain ⟨rfl, rfl⟩ := Rule.seq_nil_eq_done.1 hnil
    rw [List.append_nil]
    exact h.sound hfirst
  complete ha hrest :=
    Rule.seq_cons_eq_done.2
      ⟨_, _, [], h.complete ha hrest, Rule.seq_nil_eq_done.2 ⟨rfl, rfl⟩, (List.append_nil _).symm⟩

section

variable {trees : α → List Tree} {follow' : List Token → Prop} {ok' : γ → Prop}
  {write' : γ → List Token} {trees' : γ → List Tree}

/-- What follows the first parts is the later parts, or what follows all. -/
theorem seq_append {rs rs' : List (Rule (List Tree))}
    (h : Exact (Rule.seq rs) follow ok write trees)
    (hs : Exact (Rule.seq rs') follow' ok' write' trees')
    (hf : ∀ c rest, follow' rest → follow (write' c ++ rest)) :
    Exact (Rule.seq (rs ++ rs')) follow' (fun x : α × γ => ok x.1 ∧ ok' x.2)
      (fun x => write x.1 ++ write' x.2) fun x => trees x.1 ++ trees' x.2 where
  sound hr := by
    obtain ⟨_, _, _, hfirst, hlater, rfl⟩ := Rule.seq_append_eq_done.1 hr
    obtain ⟨a, ha, rfl, rfl⟩ := h.sound hfirst
    obtain ⟨c, hc, rfl, rfl⟩ := hs.sound hlater
    exact ⟨(a, c), ⟨ha, hc⟩, by simp, rfl⟩
  complete {x rest} hx hrest := by
    rw [List.append_assoc]
    exact Rule.seq_append_eq_done.2
      ⟨_, _, _, h.complete hx.1 (hf x.2 rest hrest), hs.complete hx.2 hrest, rfl⟩

theorem seq_cons {r : Rule (List Tree)} {rs : List (Rule (List Tree))}
    (h : Exact r follow ok write trees) (hs : Exact (Rule.seq rs) follow' ok' write' trees')
    (hf : ∀ c rest, follow' rest → follow (write' c ++ rest)) :
    Exact (Rule.seq (r :: rs)) follow' (fun x : α × γ => ok x.1 ∧ ok' x.2)
      (fun x => write x.1 ++ write' x.2) fun x => trees x.1 ++ trees' x.2 :=
  h.seq_one.seq_append hs hf

end

/-- After a token of a class anything may follow. -/
theorem seq_leaf {kind : Tree.Kind} {p : Token → Bool} {what : String}
    {rs : List (Rule (List Tree))} {trees : α → List Tree}
    (hs : Exact (Rule.seq rs) follow ok write trees) :
    Exact (Rule.seq (Rule.leaf kind p what :: rs)) follow
      (fun x : { t : Token // p t = true } × α => ok x.2) (fun x => x.1.1 :: write x.2)
      fun x => Tree.leaf kind x.1.1 :: trees x.2 :=
  ((leaf kind p what).seq_cons hs fun _ _ _ => trivial).map id (fun x => ⟨x, rfl⟩) (by simp)
    (fun _ => rfl) fun _ => rfl

theorem node (kind : Tree.Kind) {children : Rule (List Tree)} {trees : α → List Tree}
    (h : Exact children follow ok write trees) (hw : ∀ a, write a ≠ []) :
    Exact (Rule.node kind children) follow ok write fun a =>
      Phrase.node kind (write a) (trees a) where
  sound hr := by
    obtain ⟨_, hc, rfl⟩ := Rule.node_eq_done.1 hr
    obtain ⟨a, ha, rfl, rfl⟩ := h.sound hc
    refine ⟨a, ha, rfl, ?_⟩
    rw [startPlace_append (hw a)]
    rfl
  complete {a rest} ha hrest := by
    refine Rule.node_eq_done.2 ⟨_, h.complete ha hrest, ?_⟩
    rw [startPlace_append (hw a)]
    rfl

/-- A part that may be missing is missing where its first token is. -/
theorem optional {p : Token → Bool} {r : Rule (List Tree)} {trees : α → List Tree}
    (h : Exact r follow ok write trees) (hp : ∀ a, ∃ t ts, write a = t :: ts ∧ p t = true) :
    Exact (Rule.optional p r) (fun rest => follow rest ∧ NotNext p rest)
      (fun o : Option α => ∀ a ∈ o, ok a) (fun o => o.toList.flatMap write)
      fun o => o.toList.flatMap trees where
  sound hr := by
    rcases Rule.optional_eq_done.1 hr with ⟨-, rfl, rfl⟩ | ⟨t, us, -, -, hr⟩
    · exact ⟨none, by simp, rfl, rfl⟩
    · obtain ⟨a, ha, rfl, rfl⟩ := h.sound hr
      exact ⟨some a, by simpa using ha, by simp, by simp⟩
  complete {o rest} ho hrest := by
    cases o with
    | none => exact Rule.optional_eq_done.2 (.inl ⟨hrest.2, rfl, rfl⟩)
    | some a =>
      obtain ⟨t, ts, hw, ht⟩ := hp a
      have hr := h.complete (ho a rfl) hrest.1
      refine Rule.optional_eq_done.2 (.inr ⟨t, ts ++ rest, ?_, ht, ?_⟩)
      · simp [hw]
      · simpa using hr

/-! ## Lists -/

theorem commaTail_sound {item : Rule Tree} {tree : α → Tree} (h : Exact item follow ok write tree)
    {ts rest : List Token} {trees : List Tree} (hr : Rule.commaTail item ts = .done trees rest) :
    ∃ more : List (Mark "," × α), (∀ m ∈ more, ok m.2) ∧
      ts = (more.flatMap fun (comma, a) => comma.1 :: write a) ++ rest ∧
      trees = more.flatMap fun (comma, a) => [Tree.leaf .delimiter comma, tree a] := by
  fun_induction Rule.commaTail item ts generalizing trees with
  | case1 =>
    cases hr
    exact ⟨[], by simp, rfl, rfl⟩
  | case2 t ts hp _ mid hi ih =>
    obtain ⟨a, ha, rfl, rfl⟩ := h.sound hi
    obtain ⟨later, hl, rfl⟩ := Reply.map_eq_done.1 hr
    obtain ⟨more, hmore, rfl, rfl⟩ := ih hl
    exact ⟨(⟨t, hp⟩, a) :: more, by simpa [ha] using hmore, by simp, by simp⟩
  | case3 => cases hr
  | case4 =>
    cases hr
    exact ⟨[], by simp, rfl, rfl⟩

theorem commaTail_complete {item : Rule Tree} {tree : α → Tree}
    (h : Exact item follow ok write tree) (hcomma : ∀ (t : Mark ",") ts, follow (t.1 :: ts))
    {rest : List Token} (hf : follow rest) (hn : NotNext (·.isDelimiter ",") rest)
    (more : List (Mark "," × α)) (hok : ∀ m ∈ more, ok m.2) :
    Rule.commaTail item ((more.flatMap fun (comma, a) => comma.1 :: write a) ++ rest) =
      .done (more.flatMap fun (comma, a) => [Tree.leaf .delimiter comma, tree a]) rest := by
  induction more with
  | nil =>
    cases rest with
    | nil => simp [Rule.commaTail]
    | cons t ts =>
      have ht : t.isDelimiter "," = false := by simpa using hn
      simp [Rule.commaTail, ht]
  | cons m more ih =>
    obtain ⟨comma, a⟩ := m
    have hfollow : follow ((more.flatMap fun (comma, a) => comma.1 :: write a) ++ rest) := by
      cases more with
      | nil => exact hf
      | cons m more => exact hcomma m.1 _
    have hi := h.complete (hok (comma, a) (by simp)) hfollow
    have hl := ih fun m hm => hok m (by simp [hm])
    rw [List.flatMap_cons, List.append_assoc, List.cons_append, Rule.commaTail]
    simp only [comma.2, if_true]
    split
    · rename_i hr
      rw [hi] at hr
      cases hr
      simp [hl, Reply.map]
    · rename_i hr
      rw [hi] at hr
      cases hr

theorem commaList {item : Rule Tree} {tree : α → Tree} (h : Exact item follow ok write tree)
    (hcomma : ∀ (t : Mark ",") ts, follow (t.1 :: ts)) :
    Exact (Rule.commaList item) (fun rest => follow rest ∧ NotNext (·.isDelimiter ",") rest)
      (fun l : Listed α => ∀ a ∈ l.items, ok a) (Listed.tokens write) (Listed.trees tree) where
  sound hr := by
    obtain ⟨_, _, hfirst, htail⟩ := Rule.bind_eq_done.1 hr
    obtain ⟨_, _, hmore, hpure⟩ := Rule.bind_eq_done.1 htail
    obtain ⟨rfl, rfl⟩ := Rule.pure_eq_done.1 hpure
    obtain ⟨first, hf, rfl, rfl⟩ := h.sound hfirst
    obtain ⟨more, hm, rfl, rfl⟩ := h.commaTail_sound hmore
    refine ⟨⟨first, more⟩, ?_, by simp [Listed.tokens], rfl⟩
    intro a ha
    rcases List.mem_cons.1 ha with rfl | ha
    · exact hf
    · obtain ⟨m, hmem, rfl⟩ := List.mem_map.1 ha
      exact hm m hmem
  complete {l rest} hok hrest := by
    obtain ⟨first, more⟩ := l
    have hfollow : follow ((more.flatMap fun (comma, a) => comma.1 :: write a) ++ rest) := by
      cases more with
      | nil => exact hrest.1
      | cons m more => exact hcomma m.1 _
    have hfirst := h.complete (hok first (by simp [Listed.items])) hfollow
    have hmore := h.commaTail_complete hcomma hrest.1 hrest.2 more fun m hm =>
      hok m.2 (by simpa [Listed.items] using .inr ⟨m.1.1, m.1.2, hm⟩)
    refine Rule.bind_eq_done.2 ⟨_, _, ?_, Rule.bind_eq_done.2 ⟨_, _, hmore, rfl⟩⟩
    simpa [Listed.tokens] using hfirst

end Exact

end SqlScript.Grammar
