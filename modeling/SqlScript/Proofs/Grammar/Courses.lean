import SqlScript.Proofs.Grammar.Reach
import SqlScript.Proofs.Grammar.Standing

/-!
An action follows a rule: from wherever a session stands the action goes as the rule does on the tokens
ahead. It notes one failure if the rule refuses and none if it does not, and it runs out of levels where
the rule complains of that. One statement for each way to build an action.
-/

namespace SqlScript

variable {α β γ : Type}

/-- An answer, or none. -/
def Grammar.Ending.ofOption : Option α → Ending α
  | some a => .done a
  | none => .givenUp

namespace Reply

def ending : Reply α → Grammar.Ending α
  | done a _ => .done a
  | refused _ _ => .givenUp

def why : Reply α → Option Complaint
  | done _ _ => none
  | refused why _ => some why

end Reply

namespace Grammar

namespace Session

/-- Notes a complaint, if there is one, about the current token. -/
def complain (s : Session) : Option Complaint → Session
  | some why => s.failed why.message (current s.stop s.ahead)
  | none => s

theorem ahead_complain (s : Session) (why : Option Complaint) :
    (s.complain why).ahead = s.ahead := by
  cases why <;> rfl

theorem Standing.complain {s : Session} (h : s.Standing) (why : Option Complaint) :
    (s.complain why).Standing := by
  cases why with
  | none => exact h
  | some why => exact ⟨h.index_le, h.ended⟩

end Session

namespace Course

def failures (c : Course α) : Nat := c.moments.countP (·.deed = .failed)

/-- Somewhere on the way there was no room for a condition or a negation. -/
def Refuses (c : Course α) : Prop := ∃ m ∈ c.moments, m.deed = .refused

instance (c : Course α) : Decidable c.Refuses :=
  inferInstanceAs (Decidable (∃ m ∈ c.moments, m.deed = .refused))

/-- From `s` the action comes to `rest`, ends so, and notes that complaint if there is one. -/
structure Matches (c : Course α) (s : Session) (ending : Ending α) (why : Option Complaint)
    (rest : List Token) : Prop where
  suffix : rest <:+ s.ahead
  ending_eq : c.ending = ending
  session_eq : c.session = (s.moveTo rest).complain why
  failures_eq : c.failures = why.toList.length
  refuses_iff : c.Refuses ↔ why = some .tooDeep

/-- The course is what the reply to the tokens ahead says. -/
def Follows (c : Course α) (s : Session) (r : Reply α) : Prop := c.Matches s r.ending r.why r.rest

variable {s : Session}

theorem failures_behind (moments : List Moment) (c : Course α) :
    (c.behind moments).failures = moments.countP (·.deed = .failed) + c.failures := by
  simp [failures]

theorem behind_bind (moments : List Moment) (c : Course α) (f : α → Session → Course β) :
    (c.behind moments).bind f = (c.bind f).behind moments := by
  obtain ⟨later, ending, mid⟩ := c
  cases ending <;> simp [behind]

theorem bind_assoc (c : Course α) (f : α → Session → Course β) (g : β → Session → Course γ) :
    (c.bind f).bind g = c.bind fun a mid => (f a mid).bind g := by
  obtain ⟨moments, ending, mid⟩ := c
  cases ending with
  | done a => rw [bind_done, bind_done, behind_bind]
  | givenUp => rfl
  | lost => rfl

theorem refuses_behind (moments : List Moment) (c : Course α) :
    (c.behind moments).Refuses ↔ (∃ m ∈ moments, m.deed = .refused) ∨ c.Refuses := by
  simp [Refuses, or_and_right, exists_or]

namespace Matches

variable {c : Course α} {a : α} {rest : List Token} {why : Option Complaint}

theorem quiet (ending : Ending α) :
    (⟨[], ending, s⟩ : Course α).Matches s ending none s.ahead where
  suffix := List.suffix_refl _
  ending_eq := rfl
  session_eq := by rw [Session.moveTo_ahead]; rfl
  failures_eq := rfl
  refuses_iff := by simp [Refuses]

/-- What is done after an answer. -/
theorem bind_done (h : c.Matches s (.done a) none rest) {f : α → Session → Course β} {ending : Ending β} {later : List Token}
    (hf : (f a (s.moveTo rest)).Matches (s.moveTo rest) ending why later) :
    (c.bind f).Matches s ending why later := by
  obtain ⟨moments, e, mid⟩ := c
  obtain rfl : e = .done a := h.ending_eq
  obtain rfl : mid = s.moveTo rest := h.session_eq
  have hahead := Session.ahead_moveTo h.suffix
  have hlater : later <:+ rest := hahead ▸ hf.suffix
  have hquiet : moments.countP (·.deed = .failed) = 0 := h.failures_eq
  have hnone : ¬ ∃ m ∈ moments, m.deed = .refused := by
    simpa [Refuses] using h.refuses_iff
  rw [Course.bind_done]
  refine ⟨hlater.trans h.suffix, hf.ending_eq, ?_, ?_, ?_⟩
  · rw [session_behind, hf.session_eq, Session.moveTo_moveTo hlater h.suffix]
  · rw [failures_behind, hquiet, Nat.zero_add, hf.failures_eq]
  · rw [refuses_behind, or_iff_right hnone, hf.refuses_iff]

theorem bind_givenUp (h : c.Matches s .givenUp why rest) (f : α → Session → Course β) :
    (c.bind f).Matches s .givenUp why rest := by
  obtain ⟨moments, e, mid⟩ := c
  obtain rfl : e = .givenUp := h.ending_eq
  exact ⟨h.suffix, rfl, h.session_eq, h.failures_eq, h.refuses_iff⟩

/-- What is done after an answer does nothing to the session. -/
theorem bind_still (h : c.Matches s (.done a) why rest) {f : α → Session → Course β}
    {ending : Ending β} (hf : f a ((s.moveTo rest).complain why) =
      ⟨[], ending, (s.moveTo rest).complain why⟩) : (c.bind f).Matches s ending why rest := by
  obtain ⟨moments, e, mid⟩ := c
  obtain rfl : e = .done a := h.ending_eq
  obtain rfl : mid = (s.moveTo rest).complain why := h.session_eq
  rw [Course.bind_done, hf, Course.behind, List.append_nil]
  exact ⟨h.suffix, rfl, rfl, h.failures_eq, h.refuses_iff⟩

theorem attempt {a : Action α} {o : Option α} (h : (a.run s).Matches s (.ofOption o) why rest) :
    ((Action.attempt a).run s).Matches s (.done o) why rest := by
  have hending := h.ending_eq
  cases o <;> simp only [Action.attempt, hending] <;>
    exact ⟨h.suffix, rfl, h.session_eq, h.failures_eq, h.refuses_iff⟩

end Matches

end Course

namespace Action

/-- Wherever a session with as many levels left stands, the action goes as the rule does. -/
def Follows (room : Nat) (a : Action α) (r : Rule α) : Prop :=
  ∀ s : Session, s.Standing → s.room = room → (a.run s).Follows s (r.run s.ahead)

variable {room : Nat} {s : Session}

/-- The action and the rule are run on what the first ones leave. -/
theorem follows_bind {a : Action α} {f : α → Action β} {r : Rule α} {g : α → Rule β}
    {ts : List Token} (h : (a.run s).Follows s (r.run ts))
    (hf : ∀ x rest, r.run ts = .done x rest → rest <:+ s.ahead →
      ((f x).run (s.moveTo rest)).Follows (s.moveTo rest) ((g x).run rest)) :
    ((a >>= f).run s).Follows s ((r >>= g).run ts) := by
  have hsuffix := h.suffix
  rw [Rule.run_bind, run_bind]
  cases hr : r.run ts with
  | done x rest =>
    rw [hr] at h hsuffix
    exact h.bind_done (hf x rest hr hsuffix)
  | refused why rest =>
    rw [hr] at h
    exact h.bind_givenUp _

namespace Follows

theorem pure (x : α) : Follows room (Pure.pure x : Action α) (Pure.pure x) :=
  fun _ _ _ => .quiet _

theorem moved {a : Action α} {r : Rule α} (h : Follows room a r) (hs : s.Standing)
    (hroom : s.room = room) {rest : List Token} (hrest : rest <:+ s.ahead) :
    (a.run (s.moveTo rest)).Follows (s.moveTo rest) (r.run rest) := by
  have hmoved := h _ (hs.moveTo rest) hroom
  rwa [Session.ahead_moveTo hrest] at hmoved

theorem bind {a : Action α} {f : α → Action β} {r : Rule α} {g : α → Rule β} (h : Follows room a r)
    (hf : ∀ x, Follows room (f x) (g x)) : Follows room (a >>= f) (r >>= g) :=
  fun s hs hroom => follows_bind (h s hs hroom) fun x _ _ hrest => (hf x).moved hs hroom hrest

theorem refuse (what : String) :
    Follows room (Action.refuse (.expected what) : Action α) (Rule.refuse (.expected what)) := by
  intro s hs _
  rw [run_refuse _ hs.current?_eq]
  refine ⟨List.suffix_refl _, rfl, ?_, rfl, by simp [Course.Refuses, Reply.why]⟩
  change _ = (s.moveTo s.ahead).complain _
  rw [Session.moveTo_ahead]
  rfl

/-- The first token ahead is passed. -/
theorem passed {t : Token} {ts : List Token} (h : s.ahead = t :: ts) (x : α) :
    (⟨[⟨.passed, s.next⟩], .done x, s.next⟩ : Course α).Follows s (.done x ts) := by
  rw [Session.next_eq_moveTo h]
  exact ⟨h ▸ List.suffix_cons t ts, rfl, rfl, rfl, by simp [Course.Refuses, Reply.why]⟩

end Follows

/-! ## Tokens -/

/-- What is asked of tokens that are no end marks, nothing ahead answers to. -/
theorem any_head? {p : Token → Bool} (hp : ∀ t, p t = true → isEnd t = false) (hs : s.Standing) :
    s.ahead.head?.any p = p (current s.stop s.ahead) := by
  cases h : s.ahead with
  | cons t ts => rfl
  | nil =>
    cases hstop : p s.stop with
    | false => simpa [current] using hstop.symm
    | true => exact absurd hs.isEnd_stop (by simp [hp s.stop hstop])

theorem current?_of_ahead {t : Token} {ts : List Token} (hs : s.Standing) (h : s.ahead = t :: ts) :
    s.current? = some t := by
  rw [hs.current?_eq, h]
  rfl

namespace Follows

theorem accept {p : Token → Bool} (hp : ∀ t, p t = true → isEnd t = false) :
    Follows room (Action.accept p) (Rule.accept p) := by
  intro s hs _
  have hany := any_head? hp hs
  cases h : s.ahead with
  | nil =>
    rw [run_accept_none hs.current?_eq (hany.symm.trans (by rw [h]; rfl)), Rule.run_accept_nil, ← h]
    exact .quiet _
  | cons t ts =>
    have hcurrent := current?_of_ahead hs h
    rw [Rule.run_accept_cons]
    cases ht : p t with
    | true =>
      rw [run_accept hcurrent ht (hp t ht)]
      exact passed h _
    | false =>
      rw [run_accept_none hcurrent ht, if_neg Bool.false_ne_true, ← h]
      exact .quiet _

theorem expect {p : Token → Bool} (hp : ∀ t, p t = true → isEnd t = false) (what : String) :
    Follows room (Action.expect p (.expected what)) (Rule.expect p what) := by
  refine (accept hp).bind fun o => ?_
  cases o with
  | some t => exact .pure t
  | none => exact .refuse what

theorem optional {p : Token → Bool} (hp : ∀ t, p t = true → isEnd t = false)
    {a : Action (List Tree)} {r : Rule (List Tree)}
    (h : ∀ s : Session, s.Standing → s.room = room → ∀ t ts, s.ahead = t :: ts → p t = true →
      (a.run s).Follows s (r.run s.ahead)) :
    Follows room (Action.optional p a) (Rule.optional p r) := by
  intro s hs hroom
  rw [Action.optional, run_bind, run_peek hs.current?_eq, Course.bind_done, Rule.optional,
    Rule.run_look, ← any_head? hp hs]
  by_cases hany : s.ahead.head?.any p = true
  · rw [if_pos hany, if_pos hany]
    obtain ⟨t, ht, hpt⟩ := (Option.any_eq_true _ _).1 hany
    obtain ⟨ts, hts⟩ := List.head?_eq_some_iff.1 ht
    exact h s hs hroom t ts hts hpt
  · rw [if_neg hany, if_neg hany]
    exact .quiet _

theorem leaf (kind : Tree.Kind) {p : Token → Bool} (hp : ∀ t, p t = true → isEnd t = false)
    (what : String) : Follows room (Action.leaf kind p what) (Rule.leaf kind p what) :=
  (expect hp what).bind fun _ => .pure _

theorem one {a : Action Tree} {r : Rule Tree} (h : Follows room a r) :
    Follows room (Action.one a) (Rule.one r) :=
  h.bind fun _ => .pure _

theorem seq_nil : Follows room (Action.seq []) (Rule.seq []) := .pure []

theorem seq_cons {a : Action (List Tree)} {as : List (Action (List Tree))} {r : Rule (List Tree)}
    {rs : List (Rule (List Tree))} (h : Follows room a r)
    (hs : Follows room (Action.seq as) (Rule.seq rs)) :
    Follows room (Action.seq (a :: as)) (Rule.seq (r :: rs)) :=
  h.bind fun _ => hs.bind fun _ => .pure _

end Follows

/-- Where nothing is ahead a node must not come about: there would be no place for it. -/
theorem follows_node {a : Action (List Tree)} {r : Rule (List Tree)} (kind : Tree.Kind)
    (hs : s.Standing) (h : (a.run s).Follows s (r.run s.ahead))
    (hend : Rule.NeedsToken r) :
    ((node kind a).run s).Follows s ((Rule.node kind r).run s.ahead) := by
  set place := (current s.stop s.ahead).place with hplace
  have hnode : (Rule.node kind r).run s.ahead =
      (r >>= fun trees => pure (Tree.plain kind "" place trees)).run s.ahead := by
    rw [Rule.run_node, Reply.map_eq_bind, Rule.run_bind]
    cases hahead : s.ahead with
    | cons t ts => rw [hplace, hahead]; rfl
    | nil =>
      obtain ⟨why, hnil⟩ := hend
      rw [hnil]
      rfl
  rw [node, run_bind, run_peek hs.current?_eq, hnode]
  refine follows_bind h fun trees rest _ hrest => ?_
  have hpure : Follows s.room _ _ := .pure (Tree.plain kind "" place trees)
  exact hpure.moved hs rfl hrest

namespace Follows

theorem node {a : Action (List Tree)} {r : Rule (List Tree)} (kind : Tree.Kind) (h : Follows room a r)
    (hend : Rule.NeedsToken r) :
    Follows room (Action.node kind a) (Rule.node kind r) :=
  fun s hs hroom => follows_node kind hs (h s hs hroom) hend

/-! ### Levels -/

theorem nested_refused (a : Action α) :
    Follows 0 (Action.nested a) (Rule.refuse .tooDeep) := by
  intro s hs hroom
  have hfull : s.limit ≤ s.depth := by
    simp only [Session.room, roomOf] at hroom
    omega
  rw [Action.nested]
  simp only [if_pos hfull]
  rw [run_refuse _ hs.current?_eq]
  refine ⟨List.suffix_refl _, rfl, ?_, rfl, by simp [Course.Refuses, Course.behind, Reply.why]⟩
  change _ = (s.moveTo s.ahead).complain _
  rw [Session.moveTo_ahead]
  rfl

theorem nested {a : Action α} {r : Rule α} (h : Follows room a r) :
    Follows (room + 1) (Action.nested a) r := by
  intro s hs hroom
  have hfree : ¬ s.limit ≤ s.depth := by
    simp only [Session.room, roomOf] at hroom
    omega
  have hdown : s.down.Standing := ⟨hs.index_le, hs.ended⟩
  have hc := h s.down hdown (by
    simp only [Session.room, roomOf, Session.down] at hroom ⊢
    omega)
  set reply := r.run s.ahead with hreply
  have hbelow : (a.run s.down).Matches s.down reply.ending reply.why reply.rest := hc
  have hup : (a.run s.down).session.up = (s.moveTo reply.rest).complain reply.why := by
    rw [hbelow.session_eq]
    cases reply.why <;>
      simp [Session.complain, Session.moveTo, Session.failed, Session.ahead, Session.stop,
        Session.down, Session.up]
  rw [Action.nested]
  simp only [if_neg hfree, hup]
  refine ⟨hbelow.suffix, hbelow.ending_eq, rfl, ?_, ?_⟩
  · simpa [Course.failures, List.countP_cons] using hbelow.failures_eq
  · simpa [Course.Refuses, or_and_right, exists_or] using hbelow.refuses_iff

end Follows

/-! ## Repetition -/

section

variable {p : Token → Bool} {join : β → Token → α → β} {item : Action α} {rule : Rule α}

theorem run_loop (turn : β → Action (Option β)) (hturn : Advances turn) (b : β) (s : Session) :
    (loop turn hturn b).run s = ((turn b).run s).bind fun o mid =>
      match o with
      | some b' => (loop turn hturn b').run mid
      | none => ⟨[], .done b, mid⟩ := by
  change loopFrom turn hturn b s = _
  rw [loopFrom, Course.bind]
  split <;> rename_i h <;> simp only [h]
  · rfl
  · rw [Course.behind, List.append_nil]

theorem run_loop_link (hlink : Advances (link p join item)) (b : β) (s : Session) :
    (loop (link p join item) hlink b).run s =
      (do
        match ← Action.accept p with
        | some sign => loop (link p join item) hlink (join b sign (← item))
        | none => return b : Action β).run s := by
  rw [run_loop, link, run_bind, Course.bind_assoc, run_bind]
  congr 1
  funext o mid
  cases o with
  | none => rfl
  | some sign =>
    rw [run_bind, Course.bind_assoc]
    rfl

/-- By induction on the tokens ahead: each sign takes one of them. -/
theorem Follows.loop_link {tail : β → Rule β} (hp : ∀ t, p t = true → isEnd t = false)
    (hlink : Advances (link p join item)) (hitem : Follows room item rule)
    (htail : ∀ b, (tail b).run = Rule.run (do
      match ← Rule.accept p with
      | some sign => tail (join b sign (← rule))
      | none => return b)) (b : β) :
    Follows room (loop (link p join item) hlink b) (tail b) := by
  intro s hs hroom
  induction hn : s.ahead.length using Nat.strongRecOn generalizing s b with
  | _ n ih =>
    rw [run_loop_link, htail]
    refine follows_bind (Follows.accept hp s hs hroom) fun o rest ho hrest => ?_
    cases o with
    | none => exact (Follows.pure b).moved hs hroom hrest
    | some sign =>
      have hahead : s.ahead = sign :: rest := (Rule.accept_eq_done_some.1 ho).2
      have hs' := hs.moveTo rest
      refine follows_bind (hitem.moved hs hroom hrest) fun x later hx hlater => ?_
      have hshort : later.length < n := Rule.length_lt_of_done (hahead ▸ hn) hx
      have hend := Session.ahead_moveTo hlater
      have hnext := ih _ hshort (join b sign x) _ (hs'.moveTo later) hroom (congrArg _ hend)
      rwa [hend] at hnext

theorem Follows.chain (tail : β → Rule β) (hp : ∀ t, p t = true → isEnd t = false)
    (hitem : Follows room item rule)
    (htail : ∀ b, (tail b).run = Rule.run (do
      match ← Rule.accept p with
      | some sign => tail (join b sign (← rule))
      | none => return b)) (first : α → β) :
    Follows room (Action.chain p hp join first item) (do tail (first (← rule))) :=
  hitem.bind fun _ => .loop_link hp _ hitem htail _

end

namespace Follows

theorem joined (word : String) {operand : Action Tree} {rule : Rule Tree}
    (h : Follows room operand rule) :
    Follows room (Action.joined word operand) (Rule.joined (·.isKeyword word) binary rule) :=
  .chain (fun left => ⟨Rule.joinTail _ binary rule left, Rule.joinTail_suffix _ binary rule left⟩)
    (fun _ => isEnd_of_isKeyword) h (Rule.joinTail_eq _ binary rule) id

/-- The trees so far and what follows an item. -/
private def commaFrom (item : Rule Tree) (trees : List Tree) : Rule (List Tree) := do
  return trees ++ (← ⟨Rule.commaTail item, Rule.commaTail_suffix item⟩)

private theorem commaFrom_eq (item : Rule Tree) (trees : List Tree) :
    (commaFrom item trees).run = Rule.run (do
      match ← Rule.accept (·.isDelimiter ",") with
      | some comma => commaFrom item (trees ++ [Tree.leaf .delimiter comma, ← item])
      | none => return trees) := by
  funext ts
  change (Rule.commaTail item ts).bind _ = _
  rw [congrFun (Rule.commaTail_eq item) ts, Rule.run_bind, Rule.run_bind]
  cases (Rule.accept (·.isDelimiter ",")).run ts with
  | refused why rest => rfl
  | done o rest =>
    cases o with
    | none => simp
    | some comma =>
      simp only [Reply.bind_done, Rule.run_bind]
      cases item.run rest with
      | refused why later => rfl
      | done tree later =>
        simp only [commaFrom, Reply.bind_done, Rule.run_bind]
        cases Rule.commaTail item later with
        | refused why last => rfl
        | done more last => simp

theorem commaList {item : Action Tree} {rule : Rule Tree} (h : Follows room item rule) :
    Follows room (Action.commaList item) (Rule.commaList rule) :=
  .chain (commaFrom rule) (fun _ => isEnd_of_isDelimiter) h (commaFrom_eq rule) fun tree => [tree]

end Follows

end Action

end Grammar

end SqlScript
