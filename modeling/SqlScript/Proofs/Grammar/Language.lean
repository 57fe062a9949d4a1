import SqlScript.Proofs.Grammar.Rounds
import SqlScript.Proofs.Grammar.StatementRules

/-!
The language of the parser: it has nothing to say of a list of tokens exactly if the tokens are a
script, that is, complete statements one after the other with no more nesting than is allowed.
-/

namespace SqlScript.Grammar
open SqlScript.Phrase

/-! ## Statements -/

theorem Statement.ofToken?_eq_some {t : Token} {s : Statement} :
    Statement.ofToken? t = some s ↔ t.isKeyword s.word = true := by
  constructor
  · intro h
    exact List.find?_some (p := fun s : Statement => t.isKeyword s.word) h
  · intro h
    have hk := Keyword.isKeyword ⟨t, h⟩
    cases s <;> simp_all [Statement.ofToken?, Statement.all, Statement.word]

/-- A sentence is read as one statement, whatever follows it. -/
theorem statement_run_tokens {s : Sentence} {room : Nat} (hd : s.depth < room + 1) (stop : Token)
    (rest : List Token) :
    statement room stop (s.tokens ++ rest) = ⟨some s.tree, none, rest⟩ := by
  have hs : Statement.ofToken? s.lead.1 = some s.statement := Statement.ofToken?_eq_some.2 s.lead.2
  have hexact := parts_exact s.statement room
  have hrun := @hexact.complete (s.body, s.finish) rest hd trivial
  have hp := Progress.run_eq_whole.2 hrun
  rw [Sentence.tokens, List.cons_append, statement, hs]
  simp only [Statement.attempt, hp]
  simp [Sentence.tree]

/-- A statement without complaint is a sentence. -/
theorem statement_eq_whole {room : Nat} {stop : Token} {ts : List Token} (hts : ts ≠ [])
    (h : (statement room stop ts).complaint = none) :
    ∃ s : Sentence, s.depth < room + 1 ∧ ts = s.tokens ++ (statement room stop ts).rest := by
  cases ts with
  | nil => exact absurd rfl hts
  | cons t ts =>
    rw [statement] at h ⊢
    cases hs : Statement.ofToken? t with
    | none =>
      rw [hs] at h
      cases h
    | some s =>
      simp only [hs, Statement.attempt] at h ⊢
      set p := Progress.run (s.parts room) ts
      have hwhole : Progress.run (s.parts room) ts = ⟨p.trees, none, p.rest⟩ := by
        rw [← h]
      obtain ⟨⟨body, finish⟩, hd, hts, -⟩ :=
        (parts_exact s room).sound (Progress.run_eq_whole.1 hwhole)
      refine ⟨⟨s, ⟨t, Statement.ofToken?_eq_some.1 hs⟩, body, finish⟩, hd, ?_⟩
      rw [Sentence.tokens, List.cons_append, ← hts]

/-! ## Scripts -/

theorem Attempt.next_of_whole {a : Attempt} (h : a.complaint = none) : a.next false = a.rest := by
  simp [Attempt.next, h]

theorem rounds_of_script {room : Nat} (stop : Token) (script : List Sentence)
    (hd : ∀ s ∈ script, s.depth < room + 1) :
    rounds room stop false (script.flatMap Sentence.tokens) =
      script.map fun s => ⟨some s.tree, none⟩ := by
  induction script with
  | nil => simp [rounds]
  | cons s script ih =>
    have hs := statement_run_tokens (hd s (by simp)) stop (script.flatMap Sentence.tokens)
    have hl := ih fun u hu => hd u (by simp [hu])
    rw [List.flatMap_cons, List.map_cons, ← hl]
    rw [Sentence.tokens, List.cons_append] at hs ⊢
    rw [rounds, hs]
    rfl

theorem exists_script_of_rounds {room : Nat} {stop : Token} {panic : Bool} {ts : List Token}
    (hp : panic = false) (h : ∀ r ∈ rounds room stop panic ts, r.blame = none) :
    ∃ script : List Sentence, ts = script.flatMap Sentence.tokens ∧
      ∀ s ∈ script, s.depth < room + 1 := by
  fun_induction rounds room stop panic ts with
  | case1 => exact ⟨[], rfl, by simp⟩
  | case2 panic t ts a ih =>
    subst hp
    have hc : a.complaint = none := by
      have hb : a.blame stop = none := h _ (List.mem_cons_self ..)
      simpa [Attempt.blame] using hb
    obtain ⟨s, hs, hts⟩ := statement_eq_whole (List.cons_ne_nil t ts) hc
    obtain ⟨script, hscript, hd⟩ := ih rfl fun r hr => h r (List.mem_cons_of_mem _ hr)
    rw [Attempt.next_of_whole hc] at hscript
    refine ⟨s :: script, ?_, ?_⟩
    · rw [List.flatMap_cons, ← hscript]
      exact hts
    · intro u hu
      rcases List.mem_cons.1 hu with rfl | hu
      · exact hs
      · exact hd u hu

theorem lt_roomOf_succ_iff {limit : Int} {depth : Nat} :
    depth < roomOf limit + 1 ↔ (depth : Int) ≤ max limit 0 := by
  unfold roomOf
  omega

/-- A script parses to its own trees and no diagnostics. -/
theorem parse_of_reads {tokens : List Token} {limit : Int} {script : List Sentence}
    (h : Reads tokens limit script) :
    (parse tokens limit).tree.children = script.map Sentence.tree ∧
      (parse tokens limit).diagnostics = [] := by
  have hr := rounds_of_script (stopOf (closed tokens)) script fun s hs =>
    lt_roomOf_succ_iff.2 (h.depth_le s hs)
  rw [← h.tokens_eq] at hr
  rw [children_parse, diagnostics_parse, roundsOf, hr]
  constructor
  · simp [List.filterMap_map]
  · rw [recordAll_eq_nil_iff]
    simp [List.filterMap_map, Function.comp_def, Round.diagnostic?]

theorem exists_reads {tokens : List Token} {limit : Int}
    (h : (parse tokens limit).diagnostics = []) : ∃ script, Reads tokens limit script := by
  rw [diagnostics_parse, recordAll_eq_nil_iff] at h
  have hblame : ∀ r ∈ roundsOf tokens limit, r.blame = none := by
    intro r hr
    have hd := List.filterMap_eq_nil_iff.1 h.2 r hr
    simpa [Round.diagnostic?] using hd
  obtain ⟨script, hts, hd⟩ := exists_script_of_rounds rfl hblame
  exact ⟨script, hts, fun s hs => lt_roomOf_succ_iff.1 (hd s hs)⟩

/-- There are no diagnostics exactly if the tokens are a script. -/
theorem parse_diagnostics_eq_nil_iff (tokens : List Token) (limit : Int) :
    (parse tokens limit).diagnostics = [] ↔ ∃ script, Reads tokens limit script := by
  constructor
  · exact exists_reads
  · rintro ⟨script, h⟩
    exact (parse_of_reads h).2

end SqlScript.Grammar
