import SqlScript.Proofs.Grammar.Termination

/-!
More levels change nothing but what ran out of levels: a rule with more room replies as one with less
does, unless that one complains of a condition that is too deep. Until a round complains so, parses under
two limits go the same way.
-/

namespace SqlScript

variable {α β : Type}

/-- The reply is the same, unless the other one ran out of levels. -/
def Reply.Extends (x' x : Reply α) : Prop := x' = x ∨ ∃ rest, x = .refused .tooDeep rest

theorem Reply.Extends.bind {x x' : Reply α} {f f' : α → List Token → Reply β} (h : x'.Extends x)
    (hf : ∀ a rest, x = .done a rest → (f' a rest).Extends (f a rest)) :
    (x'.bind f').Extends (x.bind f) := by
  obtain rfl | ⟨rest, rfl⟩ := h
  · cases x' with
    | done a rest => exact hf a rest rfl
    | refused why rest => exact .inl rfl
  · exact .inr ⟨rest, rfl⟩

namespace Rule

/-- Where `r` does not run out of levels, `r'` replies as it does. -/
def Extends (r' r : Rule α) : Prop := ∀ ts, (r'.run ts).Extends (r.run ts)

namespace Extends

theorem refl (r : Rule α) : Extends r r := fun _ => .inl rfl

theorem tooDeep (r : Rule α) : Extends r (refuse .tooDeep) := fun ts => .inr ⟨ts, rfl⟩

theorem bind {r r' : Rule α} {f f' : α → Rule β} (h : Extends r' r) (hf : ∀ a, Extends (f' a) (f a)) :
    Extends (r' >>= f') (r >>= f) :=
  fun ts => (h ts).bind fun a rest _ => hf a rest

theorem look {choose choose' : Option Token → Rule α} (h : ∀ t, Extends (choose' t) (choose t)) :
    Extends (Rule.look choose') (Rule.look choose) :=
  fun ts => h ts.head? ts

theorem optional (p : Token → Bool) {r r' : Rule (List Tree)} (h : Extends r' r) :
    Extends (Rule.optional p r') (Rule.optional p r) := by
  refine look fun t => ?_
  split
  · exact h
  · exact .refl _

theorem node (kind : Tree.Kind) {r r' : Rule (List Tree)} (h : Extends r' r) :
    Extends (Rule.node kind r') (Rule.node kind r) := by
  intro ts
  rw [run_node, run_node, Reply.map_eq_bind, Reply.map_eq_bind]
  exact (h ts).bind fun _ _ _ => .inl rfl

theorem one {r r' : Rule Tree} (h : Extends r' r) : Extends (Rule.one r') (Rule.one r) :=
  h.bind fun _ => .refl _

theorem seq_cons {r r' : Rule (List Tree)} {rs rs' : List (Rule (List Tree))} (h : Extends r' r)
    (hs : Extends (Rule.seq rs') (Rule.seq rs)) :
    Extends (Rule.seq (r' :: rs')) (Rule.seq (r :: rs)) :=
  h.bind fun _ => hs.bind fun _ => .refl _

theorem commaTail {item item' : Rule Tree} (h : Extends item' item) :
    Extends ⟨Rule.commaTail item', commaTail_suffix item'⟩
      ⟨Rule.commaTail item, commaTail_suffix item⟩ := by
  intro ts
  induction hn : ts.length using Nat.strongRecOn generalizing ts with
  | _ n ih =>
    change (Rule.commaTail item' ts).Extends (Rule.commaTail item ts)
    rw [commaTail_eq item', commaTail_eq item, run_bind, run_bind]
    refine .bind (.inl rfl) fun o rest ho => ?_
    cases o with
    | none => exact .inl rfl
    | some t =>
      obtain ⟨-, rfl⟩ := accept_eq_done_some.1 ho
      refine (h rest).bind fun tree mid hm => ?_
      have hlt := length_lt_of_done hn hm
      exact (ih _ hlt mid rfl).bind fun _ _ _ => .inl rfl

theorem commaList {item item' : Rule Tree} (h : Extends item' item) :
    Extends (Rule.commaList item') (Rule.commaList item) :=
  h.bind fun _ => h.commaTail.bind fun _ => .refl _

theorem joinTail (p : Token → Bool) (join : Tree → Token → Tree → Tree) {operand operand' : Rule Tree}
    (h : Extends operand' operand) (left : Tree) :
    Extends ⟨Rule.joinTail p join operand' left, joinTail_suffix p join operand' left⟩
      ⟨Rule.joinTail p join operand left, joinTail_suffix p join operand left⟩ := by
  intro ts
  induction hn : ts.length using Nat.strongRecOn generalizing left ts with
  | _ n ih =>
    change (Rule.joinTail p join operand' left ts).Extends (Rule.joinTail p join operand left ts)
    rw [joinTail_eq p join operand', joinTail_eq p join operand, run_bind, run_bind]
    refine .bind (.inl rfl) fun o rest ho => ?_
    cases o with
    | none => exact .inl rfl
    | some t =>
      obtain ⟨-, rfl⟩ := accept_eq_done_some.1 ho
      refine (h rest).bind fun right mid hm => ?_
      have hlt := length_lt_of_done hn hm
      exact ih _ hlt _ mid rfl

theorem joined (p : Token → Bool) (join : Tree → Token → Tree → Tree) {operand operand' : Rule Tree}
    (h : Extends operand' operand) :
    Extends (Rule.joined p join operand') (Rule.joined p join operand) :=
  h.bind fun left => h.joinTail p join left

end Extends

end Rule

namespace Grammar

open Rule (Extends)

variable {room room' : Nat}

/-! ## Conditions -/

theorem extends_termOver {inner inner' : Unit → Rule Tree} (h : Extends (inner' ()) (inner ())) :
    Extends (termOver inner') (termOver inner) := by
  refine (Extends.refl _).bind fun o => ?_
  cases o with
  | some leaf => exact .refl _
  | none => exact (Extends.refl _).bind fun _ => h.bind fun _ => .refl _

theorem extends_comparisonOver {inner inner' : Unit → Rule Tree} (h : Extends (inner' ()) (inner ())) :
    Extends (comparisonOver inner') (comparisonOver inner) := by
  refine (extends_termOver h).bind fun left => (Extends.refl _).bind fun o => ?_
  cases o with
  | some op => exact (extends_termOver h).bind fun _ => .refl _
  | none => exact .refl _

theorem extends_conditionOver {r r' : Rule Tree} (h : Extends r' r) :
    Extends (conditionOver r') (conditionOver r) :=
  (h.joined _ binary).joined _ binary

theorem extends_negationOver {deeper deeper' : Unit → Rule Tree}
    (h : Extends (deeper' ()) (deeper ())) : Extends (negationOver deeper') (negationOver deeper) := by
  refine (Extends.refl _).bind fun o => ?_
  cases o with
  | some op => exact h.bind fun _ => .refl _
  | none => exact extends_comparisonOver (extends_conditionOver h)

/-- By induction on the smaller room: where none is left, whatever would be read was too deep. -/
theorem extends_negation (h : room ≤ room') : Extends (negation room') (negation room) := by
  induction room generalizing room' with
  | zero =>
    rw [negation_eq, negation_eq]
    exact extends_negationOver (.tooDeep _)
  | succ room ih =>
    cases room' with
    | zero => cases h
    | succ room' => exact extends_negationOver (ih (Nat.le_of_succ_le_succ h))

theorem extends_deeperNegation (h : room ≤ room') :
    Extends (deeperNegation room') (deeperNegation room) := by
  cases room with
  | zero => exact .tooDeep _
  | succ room =>
    cases room' with
    | zero => cases h
    | succ room' => exact extends_negation (Nat.le_of_succ_le_succ h)

theorem extends_condition (h : room ≤ room') : Extends (condition room') (condition room) :=
  extends_conditionOver (extends_negation h)

theorem extends_term (h : room ≤ room') : Extends (term room') (term room) :=
  extends_termOver (extends_conditionOver (extends_deeperNegation h))

/-! ## Statements -/

theorem extends_optionalWhere (h : room ≤ room') :
    Extends (optionalWhere room') (optionalWhere room) :=
  .optional _ (.one (.node _ (.seq_cons (.refl _) (.seq_cons (extends_condition h).one (.refl _)))))

theorem extends_parts (h : room ≤ room') (st : Statement) :
    List.Forall₂ Extends (st.parts room') (st.parts room) := by
  have hvalues : Extends (valueList room') (valueList room) := .node _ (extends_term h).commaList
  have hassignments : Extends (assignmentList room') (assignmentList room) :=
    .node _ (.commaList (.node _ (.seq_cons (.refl _) (.seq_cons (.refl _)
      (.seq_cons (extends_term h).one (.refl _))))))
  have hwhere := extends_optionalWhere h
  cases st <;> simp [Statement.parts, Extends.refl, hvalues.one, hassignments.one, hwhere]

theorem Progress.run_extends {rs rs' : List (Rule (List Tree))} (h : List.Forall₂ Extends rs' rs)
    (ts : List Token) : Progress.run rs' ts = Progress.run rs ts ∨
      (Progress.run rs ts).complaint = some .tooDeep := by
  induction h generalizing ts with
  | nil => exact .inl rfl
  | @cons r' r rs' rs h _ ih =>
    rw [Progress.run, Progress.run]
    rcases h ts with heq | ⟨rest, hdeep⟩
    · rw [heq]
      cases r.run ts with
      | refused why rest => exact .inl rfl
      | done trees rest =>
        rcases ih rest with heq | hdeep
        · exact .inl (by simp only [heq])
        · exact .inr hdeep
    · rw [hdeep]
      exact .inr rfl

theorem statement_extends (h : room ≤ room') (stop : Token) (ts : List Token) :
    statement room' stop ts = statement room stop ts ∨
      (statement room stop ts).complaint = some .tooDeep := by
  cases ts with
  | nil => exact .inl rfl
  | cons t ts =>
    rw [statement, statement]
    cases Statement.ofToken? t with
    | none => exact .inl rfl
    | some st =>
      rcases Progress.run_extends (extends_parts h st) ts with heq | hdeep
      · exact .inl (by simp only [Statement.attempt, heq])
      · exact .inr hdeep

/-! ## Scripts -/

namespace Session

def withLimit (s : Session) (limit : Int) : Session := { s with limit := limit }

/-- The tree that the round answers that begins here, if it answers one. -/
def answer (s : Session) : Option Tree :=
  match (Action.round.run s).ending with
  | .done tree => tree
  | _ => none

/-- The trees that the first rounds answer. -/
def answers (s : Session) (n : Nat) : List Tree :=
  (List.range n).filterMap fun k => (s.rounded k).answer

/-- The round that begins here runs out of levels. -/
def Refused (s : Session) : Prop := (Action.round.run s).Refuses

variable {s : Session} {limit : Int}

theorem answer_eq (hs : s.Standing) : s.answer = s.attempted.tree := by
  rw [answer, (Action.round_settles hs).ending_eq]

theorem refused_iff (hs : s.Standing) :
    s.Refused ↔ s.attempted.complaint = some .tooDeep :=
  (Action.round_settles hs).refuses_iff

theorem answers_succ (s : Session) (n : Nat) :
    s.answers (n + 1) = s.answer.toList ++ s.nextRound.answers n := by
  rw [answers, List.range_succ_eq_map, List.filterMap_cons, List.filterMap_map]
  cases h : s.answer <;> simp [rounded, h, answers, Function.comp_def]

theorem Standing.withLimit (hs : s.Standing) (limit : Int) : (s.withLimit limit).Standing :=
  ⟨hs.index_le, hs.ended⟩

theorem attempted_withLimit (h : s.limit ≤ limit) (hrefused : s.attempted.complaint ≠ some .tooDeep) :
    (s.withLimit limit).attempted = s.attempted := by
  have hroom : s.room ≤ (s.withLimit limit).room := by
    simp only [room, roomOf, Session.withLimit]
    omega
  exact (statement_extends hroom s.stop s.ahead).resolve_right hrefused

theorem nextRound_withLimit (hs : s.Standing)
    (h : (s.withLimit limit).attempted = s.attempted) :
    (s.withLimit limit).nextRound = s.nextRound.withLimit limit := by
  rw [nextRound_eq hs, nextRound_eq (hs.withLimit limit), h]
  unfold settled
  cases s.attempted.complaint <;> rfl

theorem answer_withLimit (hs : s.Standing) (hle : s.limit ≤ limit) (hrefused : ¬ s.Refused) :
    (s.withLimit limit).answer = s.answer := by
  rw [answer_eq hs, answer_eq (hs.withLimit limit),
    attempted_withLimit hle (mt (refused_iff hs).2 hrefused)]

theorem limit_rounded (hs : s.Standing) (n : Nat) : (s.rounded n).limit = s.limit := by
  induction n with
  | zero => rfl
  | succ n ih => rw [rounded_succ, limit_nextRound (hs.rounded n), ih]

/-- What the first rounds answer comes first, and the other rounds go on from what they leave. -/
theorem rounds_rounded (hs : s.Standing) {n : Nat} (h : ∀ k < n, (s.rounded k).atEnd = false) :
    s.rounds.filterMap (·.tree) = s.answers n ++ (s.rounded n).rounds.filterMap (·.tree) ∧
      s.completed = (s.rounded n).completed := by
  induction n generalizing s with
  | zero => exact ⟨rfl, rfl⟩
  | succ n ih =>
    have hahead : s.ahead ≠ [] := fun hnil => by
      have hend := h 0 (Nat.succ_pos n)
      rw [show s.rounded 0 = s from rfl, hs.atEnd_iff.2 hnil] at hend
      cases hend
    obtain ⟨htrees, hcompleted⟩ := ih hs.nextRound fun k hk => h (k + 1) (Nat.succ_lt_succ hk)
    refine ⟨?_, (completed_of_ahead hs hahead).trans hcompleted⟩
    rw [answers_succ, answer_eq hs, rounds_of_ahead hs hahead, List.append_assoc,
      ← rounded_nextRound, ← htrees, List.filterMap_cons]
    cases s.attempted.tree <;> rfl

theorem rounds_withLimit (hs : s.Standing) (hle : s.limit ≤ limit)
    (h : ∀ r ∈ s.rounds, ¬ r.TooDeep) : (s.withLimit limit).rounds = s.rounds := by
  induction hn : s.ahead.length using Nat.strongRecOn generalizing s with
  | _ n ih =>
    by_cases hend : s.ahead = []
    · rw [rounds_of_end hend]
      exact rounds_of_end hend
    · have hrounds := rounds_of_ahead hs hend
      rw [hrounds, List.forall_mem_cons] at h
      have hsame := attempted_withLimit hle (mt tooDeep_iff.2 h.1)
      have hnext := nextRound_withLimit hs hsame
      have hshort := hn ▸ length_ahead_nextRound hs hend
      have hlater := ih _ hshort hs.nextRound ((limit_nextRound hs).symm ▸ hle) h.2 rfl
      rw [rounds_of_ahead (hs.withLimit limit) hend, hsame, hnext, hlater, hrounds]
      rfl

/-- By induction on the tokens ahead: up to the first refusal the rounds are the same. -/
theorem exists_first_refusal (hs : s.Standing) (hle : s.limit ≤ limit)
    (h : ∃ r ∈ s.rounds, r.TooDeep) : ∃ n, (s.rounded n).Refused ∧
      (∀ k < n, ¬ (s.rounded k).Refused) ∧
      ∀ k ≤ n, (s.rounded k).atEnd = false ∧
        (s.withLimit limit).rounded k = (s.rounded k).withLimit limit := by
  induction hn : s.ahead.length using Nat.strongRecOn generalizing s with
  | _ m ih =>
    have hahead : s.ahead ≠ [] := fun hnil => by
      obtain ⟨r, hr, -⟩ := h
      rw [rounds_of_end hnil] at hr
      cases hr
    have hend : s.atEnd = false := Bool.eq_false_iff.2 (mt hs.atEnd_iff.1 hahead)
    by_cases hrefused : s.Refused
    · refine ⟨0, hrefused, fun k hk => absurd hk (Nat.not_lt_zero k), ?_⟩
      intro k hk
      obtain rfl := Nat.le_zero.1 hk
      exact ⟨hend, rfl⟩
    · have hcomplaint := mt (refused_iff hs).2 hrefused
      have hnext := nextRound_withLimit hs (attempted_withLimit hle hcomplaint)
      rw [rounds_of_ahead hs hahead, List.exists_mem_cons_iff, tooDeep_iff,
        or_iff_right hcomplaint] at h
      have hshort := hn ▸ length_ahead_nextRound hs hahead
      obtain ⟨n, hlast, hbefore, hsame⟩ :=
        ih _ hshort hs.nextRound ((limit_nextRound hs).symm ▸ hle) h rfl
      refine ⟨n + 1, hlast, ?_, ?_⟩
      · intro k hk
        cases k with
        | zero => exact hrefused
        | succ k => exact hbefore k (Nat.lt_of_succ_lt_succ hk)
      · intro k hk
        cases k with
        | zero => exact ⟨hend, rfl⟩
        | succ k =>
          rw [← rounded_nextRound, ← rounded_nextRound, hnext]
          exact hsame k (Nat.le_of_succ_le_succ hk)

end Session

open Session

/-- What the first rounds have made is the beginning of what the parse makes. -/
theorem prefix_parse {tokens : List Token} {limit : Int} {n : Nat}
    (h : ∀ k < n, ((start tokens limit).rounded k).atEnd = false) :
    (start tokens limit).answers n <+: (parse tokens limit).tree.children ∧
      ((start tokens limit).rounded n).diagnostics <+: (parse tokens limit).diagnostics := by
  obtain ⟨htrees, hcompleted⟩ := rounds_rounded (standing_start tokens limit) h
  refine ⟨?_, ?_⟩
  · rw [children_parse, ← rounds_start, htrees]
    exact List.prefix_append ..
  · have hdiagnostics : (start tokens limit).completed.diagnostics =
        (parse tokens limit).diagnostics := by
      rw [diagnostics_parse, ← rounds_start]
      rfl
    rw [← hdiagnostics, hcompleted]
    exact prefix_recordAll ..

/-- A parse that never ran out of levels is the same under a higher limit; one that did is the same up
to the statement where it first happened. -/
theorem parse_raise_limit {d d' : Int} (h : d ≤ d') (tokens : List Token) :
    (¬ (Action.script.run (start tokens d)).Refuses → parse tokens d' = parse tokens d) ∧
    ((Action.script.run (start tokens d)).Refuses → ∃ n,
      ((start tokens d).rounded n).Refused ∧
      (∀ k < n, ¬ ((start tokens d).rounded k).Refused) ∧
      (∀ k ≤ n, ((start tokens d).rounded k).atEnd = false ∧
        (start tokens d').rounded k = ((start tokens d).rounded k).withLimit d') ∧
      (start tokens d').answers n = (start tokens d).answers n ∧
      ∀ limit ∈ [d, d'], (start tokens d).answers n <+: (parse tokens limit).tree.children ∧
        ((start tokens d).rounded n).diagnostics <+: (parse tokens limit).diagnostics) := by
  have hs := standing_start tokens d
  have hstart : start tokens d' = (start tokens d).withLimit d' := rfl
  obtain ⟨moments, hrun, hrefuses⟩ := Action.run_script hs
  rw [hrun]
  constructor
  · intro hnever
    have hrounds : (start tokens d').rounds = (start tokens d).rounds :=
      rounds_withLimit hs h fun r hr hdeep => hnever (hrefuses.2 ⟨r, hr, hdeep⟩)
    rw [rounds_start, rounds_start] at hrounds
    rw [parse_eq_roundsOf, parse_eq_roundsOf, hrounds]
  · intro hrefused
    obtain ⟨n, hlast, hbefore, hsame⟩ := exists_first_refusal hs h (hrefuses.1 hrefused)
    have hanswers : (start tokens d').answers n = (start tokens d).answers n := by
      refine List.filterMap_congr fun k hk => ?_
      have hlt := List.mem_range.1 hk
      rw [hstart, (hsame k (Nat.le_of_lt hlt)).2]
      exact answer_withLimit (hs.rounded k) ((limit_rounded hs k).symm ▸ h) (hbefore k hlt)
    have hd := prefix_parse fun k hk => (hsame k (Nat.le_of_lt hk)).1
    have hd' : (start tokens d').answers n <+: (parse tokens d').tree.children ∧
        ((start tokens d').rounded n).diagnostics <+: (parse tokens d').diagnostics := by
      refine prefix_parse fun k hk => ?_
      obtain ⟨hend, hrounded⟩ := hsame k (Nat.le_of_lt hk)
      rw [hstart, hrounded]
      exact hend
    rw [hanswers, hstart, (hsame n (Nat.le_refl n)).2] at hd'
    refine ⟨n, hlast, hbefore, hsame, hanswers, ?_⟩
    simpa using ⟨hd, hd'⟩

/-- The second statement is the first that wants a level. -/
theorem parse_raise_limit_second_statement :
    let tokens := scan "SELECT a FROM t WHERE a OR b; DELETE FROM t WHERE NOT a; UPDATE t SET a = (1);"
    (0 : Int) ≤ 1 ∧ (Action.script.run (start tokens 0)).Refuses ∧
      (∃ n, ((start tokens 0).rounded n).Refused ∧
        (start tokens 0).answers n <+: (parse tokens 1).tree.children) ∧
      (parse tokens 0).diagnostics.length = 2 ∧ (parse tokens 1).diagnostics = [] := by
  intro tokens
  have hrefuses : (Action.script.run (start tokens 0)).Refuses := by decide +kernel
  obtain ⟨n, hrefused, -, -, -, hbegin⟩ :=
    (parse_raise_limit (show (0 : Int) ≤ 1 by decide) tokens).2 hrefuses
  exact ⟨by decide, hrefuses, ⟨n, hrefused, (hbegin 1 (by simp)).1⟩, by decide +kernel,
    by decide +kernel⟩

end Grammar

end SqlScript
