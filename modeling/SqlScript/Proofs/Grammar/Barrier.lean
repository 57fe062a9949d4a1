import SqlScript.Proofs.Grammar.Plain
import SqlScript.Proofs.Grammar.Rounds
import SqlScript.Proofs.Token.Order

/-!
A `;` is a barrier: what is wrong in front of it is over when it has been read, so two lists of
tokens, the first of which ends with a `;`, are read as each of them is.
-/

namespace SqlScript.Grammar

def Barred (ts : List Token) : Prop := ∀ t ∈ ts.getLast?, t.isDelimiter ";" = true

namespace Barred

variable {ts rest taken : List Token}

theorem of_suffix (h : Barred ts) (hs : rest <:+ ts) : Barred rest := by
  intro t ht
  obtain ⟨taken, rfl⟩ := hs
  have hne : rest ≠ [] := by
    rintro rfl
    cases ht
  refine h t ?_
  rwa [List.getLast?_append_of_ne_nil taken hne]

theorem rest_ne_nil (h : Barred (taken ++ rest)) (hne : taken ++ rest ≠ [])
    (hp : ∀ t ∈ taken, Plain t) : rest ≠ [] := by
  rintro rfl
  rw [List.append_nil] at h hne
  have hlast := h _ (List.getLast?_eq_some_getLast hne)
  have hplain := (hp _ (List.getLast_mem hne)).2
  rw [hlast] at hplain
  cases hplain

end Barred

/-! ## Statements -/

theorem head?_append_of_ne_nil {a : List Token} (ha : a ≠ []) (b : List Token) :
    (a ++ b).head? = a.head? := by
  cases a with
  | nil => exact absurd rfl ha
  | cons t a => rfl

/-- A rule that takes plain tokens stops in front of the `;`. -/
theorem run_append_of_barred {α : Type} {r : Rule α} (hr : r.Takes Plain) {a : List Token}
    (ha : Barred a) (hne : a ≠ []) (b : List Token) :
    r.run (a ++ b) = (r.run a).leaving ((r.run a).rest ++ b) ∧ (r.run a).rest ≠ [] := by
  obtain ⟨taken, hts, hp, hrest⟩ := hr a
  have hleft : (r.run a).rest ≠ [] := by
    rw [hts] at ha hne
    exact ha.rest_ne_nil hne hp
  refine ⟨?_, hleft⟩
  have hrun := hrest _ (head?_append_of_ne_nil hleft b)
  rwa [← List.append_assoc, ← hts] at hrun

theorem Progress.run_append {inner : List (Rule (List Tree))}
    (hin : ∀ part ∈ inner, part.Takes Plain) (what : String) {a : List Token} (ha : Barred a)
    (hne : a ≠ []) (b : List Token) :
    let p := Progress.run (inner ++ [Rule.delimiter ";" what]) a
    Progress.run (inner ++ [Rule.delimiter ";" what]) (a ++ b) = { p with rest := p.rest ++ b } ∧
      (p.complaint ≠ none → p.rest ≠ []) := by
  induction inner generalizing a with
  | nil =>
    cases a with
    | nil => exact absurd rfl hne
    | cons t a =>
      have hrun (us : List Token) : (Rule.delimiter ";" what).run (t :: us) =
          if t.isDelimiter ";" then .done [Tree.leaf .delimiter t] us
          else .refused (.expected what) (t :: us) := by
        rw [Rule.delimiter, Rule.leaf, Rule.run_bind, Rule.run_expect_cons]
        split <;> rfl
      simp only [List.nil_append, List.cons_append, Progress.run, hrun]
      cases t.isDelimiter ";" with
      | true => exact ⟨rfl, fun h => absurd rfl h⟩
      | false => exact ⟨rfl, fun _ => List.cons_ne_nil t a⟩
  | cons part inner ih =>
    obtain ⟨hrun, hleft⟩ := run_append_of_barred (hin part (List.mem_cons_self ..)) ha hne b
    have hbarred := ha.of_suffix (part.suffix a)
    have hinner : ∀ part ∈ inner, part.Takes Plain := fun q hq => hin q (List.mem_cons_of_mem _ hq)
    simp only [List.cons_append, Progress.run, hrun]
    cases hpart : part.run a with
    | refused why rest =>
      rw [hpart] at hleft
      exact ⟨rfl, fun _ => hleft⟩
    | done trees rest =>
      rw [hpart] at hleft hbarred
      obtain ⟨hlater, hlast⟩ := ih hinner hbarred hleft
      simp only [Reply.leaving, Reply.rest_done] at hlater ⊢
      rw [hlater]
      exact ⟨rfl, hlast⟩

theorem current_append (stop stop' : Token) {rest : List Token} (h : rest ≠ []) (b : List Token) :
    current stop (rest ++ b) = current stop' rest := by
  cases rest with
  | nil => exact absurd rfl h
  | cons t rest => rfl

theorem statement_append (room : Nat) (stop stop' : Token) {a : List Token} (ha : Barred a)
    (hne : a ≠ []) (b : List Token) :
    let s := statement room stop' a
    statement room stop (a ++ b) = { s with rest := s.rest ++ b } ∧
      (s.complaint ≠ none → s.rest ≠ []) := by
  cases a with
  | nil => exact absurd rfl hne
  | cons t a =>
    rw [List.cons_append, statement, statement]
    cases hs : Statement.ofToken? t with
    | none => exact ⟨rfl, fun _ => List.cons_ne_nil t a⟩
    | some s =>
      have hrest : a ≠ [] := by
        rintro rfl
        have hopener := isOpener_of_isDelimiter (ha t rfl)
        rw [Statement.isOpener_eq, hs] at hopener
        cases hopener
      obtain ⟨hrun, hleft⟩ := Progress.run_append (s.parts_plain room) s.ending
        (ha.of_suffix (List.suffix_cons t a)) hrest b
      rw [← s.parts_eq_concat] at hrun hleft
      refine ⟨?_, hleft⟩
      simp only [Statement.attempt, hrun]
      cases hc : (Progress.run (s.parts room) a).complaint with
      | none => rfl
      | some why =>
        rw [current_append stop stop' (hleft (by simp [hc])) b]

/-! ## Recovery -/

theorem recover_append {a : List Token} (ha : Barred a) (hne : a ≠ []) (b : List Token) :
    recover (a ++ b) = recover a ++ b := by
  fun_induction recover a with
  | case1 => exact absurd rfl hne
  | case2 t a ho => simp [recover, ho]
  | case3 t a ho hd => simp [recover, ho, hd]
  | case4 t a ho hd ih =>
    have hrest : a ≠ [] := by
      rintro rfl
      exact hd (ha t rfl)
    simp only [List.cons_append, recover, ho, hd]
    exact ih (ha.of_suffix (List.suffix_cons t a)) hrest

theorem rounds_append (room : Nat) (stop stop' : Token) {panic : Bool} (hp : panic = false)
    {a : List Token} (ha : Barred a) (b : List Token) :
    rounds room stop panic (a ++ b) = rounds room stop' panic a ++ rounds room stop panic b := by
  fun_induction rounds room stop' panic a with
  | case1 => rfl
  | case2 panic t a s ih =>
    subst hp
    obtain ⟨hs, hleft⟩ := statement_append room stop stop' ha (List.cons_ne_nil t a) b
    have hbarred : Barred s.rest := ha.of_suffix (statement_suffix room stop' (t :: a))
    rw [List.cons_append] at hs ⊢
    rw [rounds, hs]
    have hblame : Attempt.blame { s with rest := s.rest ++ b } stop = s.blame stop' := by
      unfold Attempt.blame
      cases hc : s.complaint with
      | none => rfl
      | some why => rw [current_append stop stop' (hleft (by simp [s, hc])) b]
    have hnext : Attempt.next { s with rest := s.rest ++ b } false = s.next false ++ b := by
      unfold Attempt.next
      cases hc : s.complaint with
      | none => rfl
      | some why => exact recover_append hbarred (hleft (by simp [s, hc])) b
    have hlater := ih rfl (hbarred.of_suffix (s.next_suffix false))
    simp only [s] at hblame hnext hlater ⊢
    rw [hblame, hnext, hlater, List.cons_append]

/-! ## Parsing -/

theorem roundsOf_append {a : List Token} (hend : ∀ t ∈ a, isEnd t = false) (ha : Barred a)
    (b : List Token) (limit : Int) :
    roundsOf (a ++ b) limit = roundsOf a limit ++ roundsOf b limit := by
  have hbefore : before a = a := by
    simpa [before] using before_append hend []
  rw [roundsOf, before_append hend, roundsOf, hbefore,
    rounds_append (roomOf limit) _ (stopOf (closed a)) rfl ha, roundsOf]
  by_cases hb : b = []
  · subst hb
    simp [before, rounds]
  · rw [stopOf_closed_append hend hb]

/-- The two lists of diagnostics do not meet at one place. -/
def Apart (ds es : List Diagnostic) : Prop :=
  ∀ d ∈ ds.getLast?, ∀ e ∈ es.head?, d.place ≠ e.place

theorem diagnostics_parse_append {a : List Token} (hend : ∀ t ∈ a, isEnd t = false)
    (ha : Barred a) {b : List Token} {limit : Int}
    (hapart : Apart (parse a limit).diagnostics (parse b limit).diagnostics) :
    (parse (a ++ b) limit).diagnostics =
      (parse a limit).diagnostics ++ (parse b limit).diagnostics := by
  rw [diagnostics_parse, diagnostics_parse] at hapart
  rw [diagnostics_parse, roundsOf_append hend ha, List.filterMap_append, recordAll_append,
    recordAll_eq_append, diagnostics_parse, diagnostics_parse]
  intro d hd e he
  exact hapart d hd e (by rwa [head?_recordAll_nil])

/-- Diagnostics on two parts of one text never meet. -/
theorem apart_of_scan {source : String} {a b : List Token} (h : scan source = a ++ b)
    (limit : Int) : Apart (parse a limit).diagnostics (parse b limit).diagnostics := by
  intro d hd e he
  obtain ⟨-, t, ht, hdt⟩ := exists_token_of_diagnostic (List.mem_of_getLast? hd)
  obtain ⟨hbefore, u, hu, heu⟩ := exists_token_of_diagnostic (List.mem_of_head? he)
  have hb : b ≠ [] := by
    rintro rfl
    exact hbefore rfl
  -- the end mark of the text is the last token of `b`, and not the only one
  obtain ⟨later, rfl⟩ : ∃ later, b = later ++ [endMark (lexemes source)] := by
    have hmark : b.getLast? = some (endMark (lexemes source)) := by
      rw [← List.getLast?_append_of_ne_nil a hb, ← h, scan, withEndMark, List.getLast?_concat]
    exact ⟨b.dropLast, (List.dropLast_append_getLast? _ hmark).symm⟩
  have hlexemes : lexemes source = a ++ later := by
    rw [scan, withEndMark, ← List.append_assoc] at h
    exact List.append_cancel_right h
  have hlater : later ≠ [] := by
    rintro rfl
    exact hbefore rfl
  obtain ⟨v, hv, huv⟩ : ∃ v ∈ later, u.place = v.place := by
    rcases List.mem_append.1 hu with hmem | hmem
    · exact ⟨u, hmem, rfl⟩
    · rw [List.mem_singleton.1 hmem, hlexemes, endMark_append a hlater]
      exact exists_place_endMark hlater
  have hsorted := lexemes_sorted source
  rw [hlexemes, List.pairwise_append] at hsorted
  rw [hdt, heu, huv]
  intro hplace
  exact (hsorted.2.2 t ht v hv).ne (Position.place_injective hplace)

/-- A `;` parts a script: what stands before it and what stands after it are parsed on their own. -/
theorem parse_append {a b : List Token} {limit : Int} (hend : ∀ t ∈ a, t.kind ≠ .endOfInput)
    (hlast : ∃ t ∈ a.getLast?, t.isDelimiter ";" = true) :
    (parse (a ++ b) limit).tree.children =
        (parse a limit).tree.children ++ (parse b limit).tree.children ∧
      (Apart (parse a limit).diagnostics (parse b limit).diagnostics →
        (parse (a ++ b) limit).diagnostics =
          (parse a limit).diagnostics ++ (parse b limit).diagnostics) ∧
      ∀ source, scan source = a ++ b →
        Apart (parse a limit).diagnostics (parse b limit).diagnostics := by
  have hends : ∀ t ∈ a, isEnd t = false := by simpa [isEnd] using hend
  have hbarred : Barred a := by
    obtain ⟨t, ht, hd⟩ := hlast
    intro u hu
    rw [Option.mem_def] at ht hu
    rw [ht, Option.some.injEq] at hu
    rwa [← hu]
  refine ⟨?_, diagnostics_parse_append hends hbarred, fun source h => apart_of_scan h limit⟩
  rw [children_parse, roundsOf_append hends hbarred, List.filterMap_append, children_parse,
    children_parse]

/-- A list of values that is left open ends with the `;`, and so does what is wrong with it. -/
theorem parse_append_open_list :
    let a := lexemes "INSERT INTO t VALUES (1, NOT ;"
    let b := scan "SELECT FROM t; DELETE"
    (∀ t ∈ a, t.kind ≠ .endOfInput) ∧ (∃ t ∈ a.getLast?, t.isDelimiter ";" = true) ∧
      (parse (a ++ b) 1).tree.children = (parse a 1).tree.children ++ (parse b 1).tree.children ∧
      (parse (a ++ b) 1).diagnostics = (parse a 1).diagnostics ++ (parse b 1).diagnostics ∧
      (parse a 1).diagnostics.length = 1 ∧ (parse b 1).diagnostics.length = 2 := by
  intro a b
  have hend : ∀ t ∈ a, t.kind ≠ .endOfInput := by decide +kernel
  have hlast : ∃ t ∈ a.getLast?, t.isDelimiter ";" = true := by decide +kernel
  have hapart : Apart (parse a 1).diagnostics (parse b 1).diagnostics := by
    unfold Apart
    decide +kernel
  obtain ⟨hchildren, hdiagnostics, -⟩ := parse_append (b := b) hend hlast
  exact ⟨hend, hlast, hchildren, hdiagnostics hapart, by decide +kernel, by decide +kernel⟩

end SqlScript.Grammar
