import SqlScript.Proofs.Grammar.Inversion

/-!
How far a rule reaches: what it answers hangs on the tokens that it takes and on the one after them.
One statement for each way to build a rule.
-/

namespace SqlScript

variable {α β : Type}

/-- The same answer, with other tokens left. -/
def Reply.leaving (rest : List Token) : Reply α → Reply α
  | done a _ => done a rest
  | refused why _ => refused why rest

theorem Reply.map_eq_bind (f : α → β) (r : Reply α) :
    r.map f = r.bind fun a rest => .done (f a) rest := by
  cases r <;> rfl

/-- What `run` takes from `ts` has `p`, and it would answer the same whatever followed the token
that it stopped at. -/
def TakesOn (p : Token → Prop) (run : List Token → Reply α) (ts : List Token) : Prop :=
  ∃ taken, ts = taken ++ (run ts).rest ∧ (∀ t ∈ taken, p t) ∧
    ∀ rest, rest.head? = (run ts).rest.head? → run (taken ++ rest) = (run ts).leaving rest

theorem head?_append_congr {taken rest rest' : List Token} (h : rest.head? = rest'.head?) :
    (taken ++ rest).head? = (taken ++ rest').head? := by
  rw [List.head?_append, List.head?_append, h]

namespace TakesOn

variable {p : Token → Prop} {ts : List Token}

theorem pure (a : α) : TakesOn p (Pure.pure a : Rule α).run ts :=
  ⟨[], rfl, by simp, fun _ _ => rfl⟩

theorem refuse (why : Complaint) : TakesOn p (Rule.refuse why : Rule α).run ts :=
  ⟨[], rfl, by simp, fun _ _ => rfl⟩

theorem bind {r : Rule α} {f : α → Rule β} (hr : TakesOn p r.run ts)
    (hf : ∀ a rest, r.run ts = .done a rest → TakesOn p (f a).run rest) :
    TakesOn p (r >>= f).run ts := by
  obtain ⟨taken, hts, hp, hrest⟩ := hr
  cases h : r.run ts with
  | refused why mid =>
    rw [h] at hts hrest
    refine ⟨taken, ?_, hp, ?_⟩
    · rw [Rule.run_bind, h]
      exact hts
    · intro rest hhead
      rw [Rule.run_bind, h] at hhead
      rw [Rule.run_bind, Rule.run_bind, h, hrest rest hhead]
      rfl
  | done a mid =>
    obtain ⟨later, hmid, hl, hlrest⟩ := hf a mid h
    rw [h] at hts hrest
    refine ⟨taken ++ later, ?_, ?_, ?_⟩
    · rw [Rule.run_bind, h, Reply.bind_done, List.append_assoc, ← hmid]
      exact hts
    · intro t ht
      rcases List.mem_append.1 ht with ht | ht
      · exact hp t ht
      · exact hl t ht
    · intro rest hhead
      rw [Rule.run_bind, h, Reply.bind_done] at hhead
      have hmid' : (later ++ rest).head? = mid.head? := by
        rw [hmid]
        exact head?_append_congr hhead
      rw [Rule.run_bind, Rule.run_bind, h, List.append_assoc, hrest _ hmid']
      exact hlrest rest hhead

theorem take? {f : Token → Option α} (h : ∀ t ∈ ts.head?, ∀ a, f t = some a → p t) :
    TakesOn p (Rule.take? f).run ts := by
  cases ts with
  | nil =>
    refine ⟨[], rfl, by simp, ?_⟩
    intro rest hrest
    cases rest with
    | nil => rfl
    | cons t ts => cases hrest
  | cons t ts =>
    cases hf : f t with
    | none =>
      have hrun (us : List Token) : (Rule.take? f).run (t :: us) = .done none (t :: us) := by
        rw [Rule.run_take?_cons, hf]
      refine ⟨[], ?_, by simp, ?_⟩
      · rw [hrun, List.nil_append, Reply.rest_done]
      · intro rest hrest
        rw [hrun] at hrest ⊢
        obtain ⟨us, rfl⟩ := List.head?_eq_some_iff.1 hrest
        exact hrun us
    | some a =>
      have hrun (us : List Token) : (Rule.take? f).run (t :: us) = .done (some a) us := by
        rw [Rule.run_take?_cons, hf]
      refine ⟨[t], ?_, ?_, ?_⟩
      · rw [hrun, Reply.rest_done, List.singleton_append]
      · intro u hu
        rw [List.mem_singleton] at hu
        subst hu
        exact h u rfl a hf
      · intro rest hrest
        rw [hrun, List.singleton_append, hrun, Reply.leaving]

theorem accept {q : Token → Bool} (h : ∀ t ∈ ts.head?, q t = true → p t) :
    TakesOn p (Rule.accept q).run ts := by
  refine take? ?_
  intro t ht a ha
  exact h t ht (Option.guard_eq_some_iff.1 ha).2

theorem look {choose : Option Token → Rule α} (h : TakesOn p (choose ts.head?).run ts) :
    TakesOn p (Rule.look choose).run ts := by
  obtain ⟨taken, hts, hp, hrest⟩ := h
  refine ⟨taken, hts, hp, ?_⟩
  intro rest hhead
  have hstart : (taken ++ rest).head? = ts.head? := by
    rw [hts]
    exact head?_append_congr hhead
  rw [Rule.run_look, hstart]
  exact hrest rest hhead

theorem optional {q : Token → Bool} {r : Rule (List Tree)}
    (h : ∀ t us, ts = t :: us → q t = true → TakesOn p r.run ts) :
    TakesOn p (Rule.optional q r).run ts := by
  refine look ?_
  cases ts with
  | nil => exact pure []
  | cons t us =>
    cases hq : q t with
    | false => simpa [hq] using pure []
    | true => simpa [hq] using h t us rfl hq

theorem node {kind : Tree.Kind} {children : Rule (List Tree)} (h : TakesOn p children.run ts) :
    TakesOn p (Rule.node kind children).run ts := by
  obtain ⟨taken, hts, hp, hrest⟩ := h
  have hleft : ((Rule.node kind children).run ts).rest = (children.run ts).rest := by simp
  refine ⟨taken, ?_, hp, ?_⟩
  · rw [hleft]
    exact hts
  · intro rest hhead
    rw [hleft] at hhead
    have hstart : Rule.startPlace (taken ++ rest) = Rule.startPlace ts := by
      rw [Rule.startPlace, head?_append_congr hhead, ← hts]
      rfl
    rw [Rule.run_node, Rule.run_node, hstart, hrest rest hhead]
    cases children.run ts <;> rfl

theorem opening {q : Token → Bool} (h : ∀ t, q t = true → p t) {t : Token} (ht : q t = true) :
    TakesOn p Rule.opening.run (t :: ts) := by
  refine bind (accept ?_) fun _ _ _ => pure _
  rintro _ ⟨⟩ -
  exact h t ht

end TakesOn

/-! ## Rules that always reach as far -/

namespace Rule

/-- Where no token is left the rule answers nothing, so a node that it reads has a place. -/
def NeedsToken (r : Rule α) : Prop := ∃ why, r.run [] = .refused why []

/-- The rule takes tokens with `p` only, and looks no further than one token. -/
def Takes (p : Token → Prop) (r : Rule α) : Prop := ∀ ts, TakesOn p r.run ts

namespace Takes

variable {p : Token → Prop}

theorem mono {p' : Token → Prop} {r : Rule α} (hr : Takes p r) (h : ∀ t, p t → p' t) :
    Takes p' r := by
  intro ts
  obtain ⟨taken, hts, hp, hrest⟩ := hr ts
  exact ⟨taken, hts, fun t ht => h t (hp t ht), hrest⟩

theorem bind {r : Rule α} {f : α → Rule β} (hr : Takes p r) (hf : ∀ a, Takes p (f a)) :
    Takes p (r >>= f) :=
  fun ts => (hr ts).bind fun a rest _ => hf a rest

theorem expect {q : Token → Bool} (h : ∀ t, q t = true → p t) (what : String) :
    Takes p (Rule.expect q what) := by
  have haccept : Takes p (Rule.accept q) := fun ts => .accept fun t _ => h t
  refine haccept.bind ?_
  intro o ts
  cases o with
  | none => exact .refuse _
  | some t => exact .pure t

theorem leaf (kind : Tree.Kind) {q : Token → Bool} (h : ∀ t, q t = true → p t) (what : String) :
    Takes p (Rule.leaf kind q what) :=
  (expect h what).bind fun _ _ => .pure _

theorem one {r : Rule Tree} (h : Takes p r) : Takes p (Rule.one r) := h.bind fun _ _ => .pure _

theorem node (kind : Tree.Kind) {children : Rule (List Tree)} (h : Takes p children) :
    Takes p (Rule.node kind children) :=
  fun ts => (h ts).node

theorem seq_nil : Takes p (Rule.seq []) := fun _ => .pure []

theorem seq_cons {r : Rule (List Tree)} {rs : List (Rule (List Tree))} (h : Takes p r)
    (hs : Takes p (Rule.seq rs)) : Takes p (Rule.seq (r :: rs)) :=
  h.bind fun _ => hs.bind fun _ _ => .pure _

theorem optional_opening {q : Token → Bool} (h : ∀ t, q t = true → p t) :
    Takes p (Rule.optional q Rule.opening) := by
  intro ts
  refine .optional ?_
  rintro t us rfl ht
  exact .opening h ht

/-- A part that starts with whatever is next, run where a token with `q` is next. -/
theorem seq_opening {q : Token → Bool} (h : ∀ t, q t = true → p t) {t : Token} (ht : q t = true)
    {rs : List (Rule (List Tree))} (hs : Takes p (Rule.seq rs)) (ts : List Token) :
    TakesOn p (Rule.seq (Rule.opening :: rs)).run (t :: ts) :=
  (TakesOn.opening h ht).bind fun _ rest _ => hs.bind (fun _ _ => .pure _) rest

theorem optional_seq {q : Token → Bool} (h : ∀ t, q t = true → p t)
    {rs : List (Rule (List Tree))} (hs : Takes p (Rule.seq rs)) :
    Takes p (Rule.optional q (Rule.seq (Rule.opening :: rs))) := by
  intro ts
  refine .optional ?_
  rintro t us rfl ht
  exact seq_opening h ht hs us

theorem optional_node {q : Token → Bool} (h : ∀ t, q t = true → p t) (kind : Tree.Kind)
    {rs : List (Rule (List Tree))} (hs : Takes p (Rule.seq rs)) :
    Takes p (Rule.optional q (Rule.one (Rule.node kind (Rule.seq (Rule.opening :: rs))))) := by
  intro ts
  refine .optional ?_
  rintro t us rfl ht
  exact (seq_opening h ht hs us).node.bind fun _ _ _ => .pure _

end Takes

/-! ### Repetition -/

theorem commaTail_eq (item : Rule Tree) :
    commaTail item = Rule.run (do
      match ← accept (·.isDelimiter ",") with
      | some t =>
        let tree ← item
        let more ← ⟨commaTail item, commaTail_suffix item⟩
        return Tree.leaf .delimiter t :: tree :: more
      | none => return []) := by
  funext ts
  cases ts with
  | nil => simp [commaTail]
  | cons t ts =>
    rw [commaTail, run_bind, run_accept_cons]
    split
    · rw [Reply.bind_done, run_bind]
      split <;> rename_i h <;> rw [h]
      · rw [Reply.map_eq_bind]
        rfl
      · rfl
    · rfl

theorem joinTail_eq (q : Token → Bool) (join : Tree → Token → Tree → Tree) (operand : Rule Tree)
    (left : Tree) :
    joinTail q join operand left = Rule.run (do
      match ← accept q with
      | some t =>
        let right ← operand
        ⟨joinTail q join operand (join left t right), joinTail_suffix q join operand _⟩
      | none => return left) := by
  funext ts
  cases ts with
  | nil => simp [joinTail]
  | cons t ts =>
    rw [joinTail, run_bind, run_accept_cons]
    split
    · rw [Reply.bind_done, run_bind]
      split <;> rename_i h <;> rw [h]
      · rfl
      · rfl
    · rfl

theorem length_le_of_done {r : Rule α} {ts rest : List Token} {a : α}
    (h : r.run ts = .done a rest) : rest.length ≤ ts.length := by
  have hle := r.length_le ts
  rwa [h, Reply.rest_done] at hle

theorem length_lt_of_done {r : Rule α} {t : Token} {ts rest : List Token} {a : α} {n : Nat}
    (hn : (t :: ts).length = n) (h : r.run ts = .done a rest) : rest.length < n :=
  hn ▸ Nat.lt_succ_of_le (length_le_of_done h)

namespace Takes

variable {p : Token → Prop}

theorem commaTail {item : Rule Tree} (hcomma : ∀ t : Token, t.isDelimiter "," = true → p t)
    (hitem : Takes p item) (ts : List Token) : TakesOn p (Rule.commaTail item) ts := by
  induction hn : ts.length using Nat.strongRecOn generalizing ts with
  | _ n ih =>
    rw [commaTail_eq]
    refine .bind (.accept fun t _ => hcomma t) ?_
    intro o rest ho
    cases o with
    | none => exact .pure []
    | some t =>
      obtain ⟨-, rfl⟩ := accept_eq_done_some.1 ho
      refine (hitem rest).bind ?_
      intro tree mid hm
      have hlt := length_lt_of_done hn hm
      exact TakesOn.bind (r := ⟨Rule.commaTail item, _⟩) (ih _ hlt mid rfl) fun _ _ _ => .pure _

theorem commaList {item : Rule Tree} (hcomma : ∀ t : Token, t.isDelimiter "," = true → p t)
    (hitem : Takes p item) : Takes p (Rule.commaList item) := by
  have htail : Takes p ⟨Rule.commaTail item, Rule.commaTail_suffix item⟩ := hitem.commaTail hcomma
  exact hitem.bind fun _ => htail.bind fun _ _ => .pure _

theorem joinTail {q : Token → Bool} (hq : ∀ t, q t = true → p t)
    {join : Tree → Token → Tree → Tree} {operand : Rule Tree} (hoperand : Takes p operand)
    (left : Tree) (ts : List Token) : TakesOn p (Rule.joinTail q join operand left) ts := by
  induction hn : ts.length using Nat.strongRecOn generalizing left ts with
  | _ n ih =>
    rw [joinTail_eq]
    refine .bind (.accept fun t _ => hq t) ?_
    intro o rest ho
    cases o with
    | none => exact .pure left
    | some t =>
      obtain ⟨-, rfl⟩ := accept_eq_done_some.1 ho
      refine (hoperand rest).bind ?_
      intro right mid hm
      have hlt := length_lt_of_done hn hm
      exact ih _ hlt _ mid rfl

theorem joined {q : Token → Bool} (hq : ∀ t, q t = true → p t)
    {join : Tree → Token → Tree → Tree} {operand : Rule Tree} (hoperand : Takes p operand) :
    Takes p (Rule.joined q join operand) :=
  hoperand.bind fun left => hoperand.joinTail hq left

end Takes

end Rule

end SqlScript
