import Mathlib.Data.List.Flatten
import SqlScript.Proofs.Grammar.Language
import SqlScript.Proofs.Token.Layout
import SqlScript.Proofs.Token.Order

/-!
A `;` that is missing costs one diagnostic and nothing else. No word that opens a statement goes on
with the one in front of it, so the statement is whole but for its `;`, and recovery stays where it
is.
-/

namespace SqlScript

/-- The tree with another last child. -/
def Tree.withLast (t child : Tree) : Tree := .node t.label (t.children.dropLast ++ [child])

namespace Phrase
open SqlScript.Grammar

/-! ## Drafts -/

/-- A sentence, and whether the `;` at its end is written. -/
structure Draft where
  sentence : Sentence
  ended : Bool

namespace Draft

def lead (d : Draft) : Token := d.sentence.lead.1

def tokens (d : Draft) : List Token :=
  if d.ended then d.sentence.tokens else d.sentence.tokens.dropLast

/-- The sentence's tree, with a leaf for the next token where the one of the `;` is missing. -/
def tree (d : Draft) (next : Token) : Tree :=
  if d.ended then d.sentence.tree else d.sentence.tree.withLast (Tree.leaf .error next)

def diagnostic? (d : Draft) (next : Token) : Option Diagnostic :=
  if d.ended then none
  else some (.found ("Expected " ++ d.sentence.statement.ending) next)

/-- The token after a sentence: the first of the one behind it, or the end mark. -/
def next (stop : Token) (later : List Draft) : Token := (later.head?.map lead).getD stop

/-- Each sentence with the token that comes after it. -/
def paired (stop : Token) : List Draft → List (Draft × Token)
  | [] => []
  | d :: later => (d, next stop later) :: paired stop later

end Draft

theorem Sentence.dropLast_tokens (s : Sentence) :
    s.tokens.dropLast = s.lead.1 :: s.body.tokens := by
  rw [tokens, ← List.cons_append, List.dropLast_concat]

theorem Sentence.withLast_tree (s : Sentence) (child : Tree) :
    s.tree.withLast child =
      Tree.plain s.statement.kind "" s.lead.1.place
        (Tree.leaf .keyword s.lead :: s.body.trees ++ [child]) := by
  rw [Tree.withLast, tree, Tree.plain, Tree.children_node, ← List.cons_append,
    List.dropLast_concat]
  rfl

theorem Body.tokens_ne_nil {s : Statement} (body : Body s) : body.tokens ≠ [] := by
  cases body <;> simp [tokens]

namespace Draft

variable {d : Draft}

theorem tokens_eq_cons (d : Draft) :
    ∃ t ts, d.tokens = d.lead :: t :: ts := by
  obtain ⟨t, ts, hbody⟩ := List.exists_cons_of_ne_nil (d.sentence.body.tokens_ne_nil)
  unfold tokens
  split
  · exact ⟨t, ts ++ [d.sentence.finish.1], by rw [Sentence.tokens, hbody]; rfl⟩
  · exact ⟨t, ts, by rw [Sentence.dropLast_tokens, hbody]; rfl⟩

theorem tokens_sublist (d : Draft) : d.tokens.Sublist d.sentence.tokens := by
  unfold tokens
  split
  · exact List.Sublist.refl _
  · exact List.dropLast_sublist _

theorem current_tokens (stop : Token) (script : List Draft) :
    current stop (script.flatMap tokens) = next stop script := by
  cases script with
  | nil => rfl
  | cons d script =>
    obtain ⟨t, ts, hd⟩ := d.tokens_eq_cons
    rw [List.flatMap_cons, hd]
    rfl

theorem next_eq_or (stop : Token) (later : List Draft) :
    next stop later = stop ∨ next stop later ∈ later.map lead := by
  cases later with
  | nil => exact .inl rfl
  | cons d later => exact .inr (List.mem_cons_self ..)

theorem place_of_diagnostic? {next : Token} {e : Diagnostic} (h : d.diagnostic? next = some e) :
    e.place = next.place := by
  unfold diagnostic? at h
  split at h
  · cases h
  · cases h
    rfl

theorem map_fst_paired (stop : Token) (script : List Draft) :
    (paired stop script).map (·.1) = script := by
  induction script with
  | nil => rfl
  | cons d later ih => rw [paired, List.map_cons, ih]

theorem mem_paired {stop : Token} {script : List Draft} {p : Draft × Token}
    (h : p ∈ paired stop script) : p.2 = stop ∨ p.2 ∈ script.tail.map lead := by
  induction script with
  | nil => cases h
  | cons d later ih =>
    rcases List.mem_cons.1 h with rfl | h
    · exact next_eq_or stop later
    · refine (ih h).imp_right fun hmem => ?_
      exact List.map_subset _ (List.tail_sublist later).subset hmem

theorem tokens_script_sublist (script : List Draft) :
    (script.flatMap tokens).Sublist ((script.map sentence).flatMap Sentence.tokens) := by
  rw [List.flatMap_map]
  exact List.Sublist.flatMap_right _ fun d _ => d.tokens_sublist

theorem leads_sublist (script : List Draft) :
    (script.map lead).Sublist (script.flatMap tokens) := by
  have hleads : script.map lead = script.flatMap fun d => [d.lead] :=
    (List.flatMap_pure_eq_map ..).symm
  rw [hleads]
  refine List.Sublist.flatMap_right _ fun d _ => ?_
  obtain ⟨t, ts, hd⟩ := d.tokens_eq_cons
  rw [hd]
  exact (List.nil_sublist _).cons_cons _

/-- The first token of a draft is not the last of all. -/
theorem exists_lead_sublist {d : Draft} {script : List Draft} (h : d ∈ script) :
    ∃ t, [d.lead, t].Sublist (script.flatMap tokens) := by
  obtain ⟨t, ts, hd⟩ := d.tokens_eq_cons
  have hmem : d.tokens.Sublist (script.flatMap tokens) :=
    List.sublist_flatten_of_mem (List.mem_map_of_mem h)
  refine ⟨t, List.Sublist.trans ?_ hmem⟩
  rw [hd]
  exact ((List.nil_sublist _).cons_cons _).cons_cons _

end Draft

end Phrase

namespace Grammar
open SqlScript.Phrase

/-! ## Statements without a `;` -/

theorem halts_of_lead {s : Statement} (lead : Keyword s.word) (rest : List Token) :
    Halts (lead.1 :: rest) := by
  have hrelational : isRelational lead.1 = false :=
    not_relational_of_keyword lead.2 (by cases s <;> decide)
  refine ⟨⟨by simpa using hrelational, ?_, ?_⟩, by simp, ?_, ?_, ?_⟩ <;>
    cases s <;> simp [isDirection, Statement.word]

/-- Nothing goes on with a sentence where another one begins, or at the end. -/
theorem halts_of_script (script : List Draft) :
    Halts (script.flatMap Draft.tokens) ∧
      NotNext (·.isDelimiter ";") (script.flatMap Draft.tokens) ∧
      recover (script.flatMap Draft.tokens) = script.flatMap Draft.tokens := by
  cases script with
  | nil => exact ⟨⟨⟨by simp, by simp, by simp⟩, by simp, by simp, by simp, by simp⟩, by simp, rfl⟩
  | cons d script =>
    obtain ⟨t, ts, hd⟩ := d.tokens_eq_cons
    have hopener : Statement.isOpener d.lead = true :=
      Statement.isOpener_of_some (Statement.ofToken?_eq_some.2 d.sentence.lead.2)
    rw [List.flatMap_cons, hd, List.cons_append]
    refine ⟨halts_of_lead d.sentence.lead _, by simp [Draft.lead], ?_⟩
    rw [recover, if_pos hopener]

theorem Progress.run_append_of_done {rs rs' : List (Rule (List Tree))} {ts mid : List Token}
    {trees : List Tree} (h : (Rule.seq rs).run ts = .done trees mid) :
    Progress.run (rs ++ rs') ts =
      { Progress.run rs' mid with trees := trees ++ (Progress.run rs' mid).trees } := by
  induction rs generalizing ts trees with
  | nil =>
    obtain ⟨rfl, rfl⟩ := Rule.seq_nil_eq_done.1 h
    rfl
  | cons r rs ih =>
    obtain ⟨first, mid', later, hr, hrs, rfl⟩ := Rule.seq_cons_eq_done.1 h
    rw [List.cons_append, Progress.run, hr]
    simp only [ih hrs, List.append_assoc]

theorem Progress.run_finish_of_notNext {what : String} {ts : List Token}
    (h : NotNext (·.isDelimiter ";") ts) :
    Progress.run [Rule.delimiter ";" what] ts = ⟨[], some (.expected what), ts⟩ := by
  cases ts with
  | nil => rfl
  | cons t ts =>
    have ht : t.isDelimiter ";" = false := by simpa using h
    simp [Progress.run, Rule.delimiter, Rule.leaf, ht]

/-- A sentence without its `;` is read up to where that is missing. -/
theorem statement_run_dropLast {s : Sentence} {room : Nat} (hd : s.depth < room + 1) (stop : Token)
    {rest : List Token} (hrest : Halts rest) (hfinish : NotNext (·.isDelimiter ";") rest) :
    statement room stop (s.tokens.dropLast ++ rest) =
      ⟨some (s.tree.withLast (Tree.leaf .error (current stop rest))),
        some (.expected s.statement.ending), rest⟩ := by
  have hs : Statement.ofToken? s.lead.1 = some s.statement := Statement.ofToken?_eq_some.2 s.lead.2
  have hbody := (body_exact s.statement room).complete (a := s.body) hd hrest
  have hrun : Progress.run (s.statement.parts room) (s.body.tokens ++ rest) =
      ⟨s.body.trees, some (.expected s.statement.ending), rest⟩ := by
    rw [s.statement.parts_eq_concat, Progress.run_append_of_done hbody,
      Progress.run_finish_of_notNext hfinish]
    simp
  rw [s.dropLast_tokens, List.cons_append, statement, hs]
  simp only [Statement.attempt, hrun, s.withLast_tree]

/-! ## Scripts -/

/-- What a draft is read as. -/
def Draft.round (d : Draft) (next : Token) : Round :=
  ⟨some (d.tree next), if d.ended then none else some ⟨.expected d.sentence.statement.ending, next⟩⟩

theorem Draft.diagnostic?_round (d : Draft) (next : Token) :
    (Draft.round d next).diagnostic? = d.diagnostic? next := by
  unfold Draft.round Draft.diagnostic?
  split <;> rfl

theorem rounds_of_drafts {room : Nat} (stop : Token) (script : List Draft)
    (hd : ∀ d ∈ script, d.sentence.depth < room + 1) :
    rounds room stop false (script.flatMap Draft.tokens) =
      (Draft.paired stop script).map fun (d, next) => Draft.round d next := by
  induction script with
  | nil => simp [rounds, Draft.paired]
  | cons d script ih =>
    obtain ⟨hhalts, hfinish, hrecover⟩ := halts_of_script script
    have hdepth := hd d (List.mem_cons_self ..)
    have hlater := ih fun e he => hd e (List.mem_cons_of_mem _ he)
    have hround : statement room stop (d.tokens ++ script.flatMap Draft.tokens) =
        ⟨some (d.tree (Draft.next stop script)),
          if d.ended then none else some (.expected d.sentence.statement.ending),
          script.flatMap Draft.tokens⟩ := by
      rw [← Draft.current_tokens, Draft.tokens, Draft.tree]
      split
      · exact statement_run_tokens hdepth stop _
      · exact statement_run_dropLast hdepth stop hhalts hfinish
    rw [Draft.paired, List.map_cons, ← hlater, List.flatMap_cons]
    obtain ⟨t, ts, htokens⟩ := d.tokens_eq_cons
    rw [htokens, List.cons_append] at hround ⊢
    rw [rounds, hround]
    cases he : d.ended with
    | true => simp [Attempt.blame, Attempt.next, Draft.round, he]
    | false => simp [Attempt.blame, Attempt.next, Draft.round, he, hrecover, Draft.current_tokens]

/-! ## Places -/

theorem isEnd_of_mem_lexemes {source : String} {t : Token} (h : t ∈ lexemes source) :
    isEnd t = false := by
  simpa [isEnd] using kind_of_mem_lexemes h

theorem before_scan (source : String) : before (scan source) = lexemes source :=
  before_withEndMark fun _ => isEnd_of_mem_lexemes

/-- The end mark stands at the last token, and so behind a token that another one follows. -/
theorem position_ne_endMark {ts : List Token} {t u : Token}
    (hsorted : ts.Pairwise fun a b => a.position.Precedes b.position)
    (h : [t, u].Sublist ts) : t.position ≠ (endMark ts).position := by
  obtain ⟨later, last, rfl⟩ : ∃ later last, ts = later ++ [last] :=
    ⟨_, _, (List.dropLast_append_getLast (by rintro rfl; cases h)).symm⟩
  have hlast : (endMark (later ++ [last])).position = last.position := by simp [endMark]
  rw [hlast]
  have htu := List.rel_of_pairwise_cons (hsorted.sublist h) (List.mem_singleton.2 rfl)
  rw [List.pairwise_append] at hsorted
  have hmem : u ∈ later ++ [last] := h.subset (List.mem_cons_of_mem _ (List.mem_singleton.2 rfl))
  rcases List.mem_append.1 hmem with hu | hu
  · exact (htu.trans (hsorted.2.2 u hu last (List.mem_singleton.2 rfl))).ne
  · rw [List.mem_singleton.1 hu] at htu
    exact htu.ne

/-- The end marks that a draft may have: the one of the text it was made from, or its own. -/
def Draft.Stops (source : String) (script : List Draft) (stop : Token) : Prop :=
  stop = endMark (lexemes source) ∨ stop = endMark (script.flatMap Draft.tokens)

section

variable {source : String} {script : List Draft} {stop : Token}

theorem paired_apart (htokens : (script.flatMap Draft.tokens).Sublist (lexemes source))
    (hstop : Draft.Stops source script stop) :
    (Draft.paired stop script).Pairwise fun p q => p.2.place ≠ q.2.place := by
  have hsorted := (lexemes_sorted source).sublist htokens
  have hleads := (hsorted.sublist (Draft.leads_sublist script)).imp fun h => h.ne
  have hends : ∀ d ∈ script, d.lead.position ≠ stop.position := by
    intro d hd
    obtain ⟨t, ht⟩ := Draft.exists_lead_sublist hd
    rcases hstop with rfl | rfl
    · exact position_ne_endMark (lexemes_sorted source) (ht.trans htokens)
    · exact position_ne_endMark hsorted ht
  clear htokens hstop hsorted
  induction script with
  | nil => exact .nil
  | cons d later ih =>
    rw [List.map_cons, List.pairwise_cons] at hleads
    rw [Draft.paired, List.pairwise_cons]
    refine ⟨?_, ih hleads.2 fun e he => hends e (List.mem_cons_of_mem _ he)⟩
    cases later with
    | nil => exact fun q hq => absurd hq List.not_mem_nil
    | cons e later =>
      intro q hq hplace
      have hposition : e.lead.position = q.2.position := Position.place_injective hplace
      rcases Draft.mem_paired hq with heq | hmem
      · exact hends e (by simp) (heq ▸ hposition)
      · exact (List.pairwise_cons.1 hleads.2).1 _ hmem hposition

theorem roundsOf_drafts {limit : Int} (hend : ∀ t ∈ script.flatMap Draft.tokens, isEnd t = false)
    (hstop : isEnd stop = true) (hd : ∀ d ∈ script, d.sentence.depth < roomOf limit + 1) :
    roundsOf (script.flatMap Draft.tokens ++ [stop]) limit =
      (Draft.paired stop script).map fun (d, next) => Draft.round d next := by
  rw [roundsOf_concat hend hstop, rounds_of_drafts stop script hd]

/-- Each `;` that is missing is reported at the token that comes next, in order, and the leaf of
that token stands where its own would; all else is as if it were there. -/
theorem parse_drafts {limit : Int} (h : Reads (scan source) limit (script.map Draft.sentence))
    (hstop : Draft.Stops source script stop) :
    let draft := parse (script.flatMap Draft.tokens ++ [stop]) limit
    let pairs := Draft.paired stop script
    (parse (scan source) limit).tree.children = pairs.map (fun (d, _) => d.sentence.tree) ∧
      draft.tree.children = pairs.map (fun (d, next) => d.tree next) ∧
      draft.diagnostics = pairs.filterMap fun (d, next) => d.diagnostic? next := by
  have htokens : (script.flatMap Draft.tokens).Sublist (lexemes source) := by
    rw [← before_scan, h.tokens_eq]
    exact Draft.tokens_script_sublist script
  have hend : ∀ t ∈ script.flatMap Draft.tokens, isEnd t = false := fun t ht =>
    isEnd_of_mem_lexemes (htokens.subset ht)
  have hmark : isEnd stop = true := by
    rcases hstop with rfl | rfl <;> rfl
  have hdepth : ∀ d ∈ script, d.sentence.depth < roomOf limit + 1 := fun d hd =>
    lt_roomOf_succ_iff.2 (h.depth_le _ (List.mem_map_of_mem hd))
  have hrounds := roundsOf_drafts hend hmark hdepth
  refine ⟨?_, ?_, ?_⟩
  · have hfst := Draft.map_fst_paired stop script
    rw [(parse_of_reads h).1, List.map_map]
    conv => lhs; rw [← hfst, List.map_map]
    rfl
  · rw [children_parse, hrounds, List.filterMap_map, ← List.filterMap_eq_map]
    rfl
  · have hkept := (paired_apart htokens hstop).filterMap (S := fun d e => d.place ≠ e.place)
      (fun p : Draft × Token => p.1.diagnostic? p.2) ?_
    · rw [diagnostics_parse, hrounds, List.filterMap_map]
      simp only [Function.comp_def, Draft.diagnostic?_round]
      exact recordAll_of_isChain hkept.isChain
    · intro p q hpq e he f hf
      rwa [Draft.place_of_diagnostic? he, Draft.place_of_diagnostic? hf]

end

/-- Two sentences without their `;`: the second error stands at the end mark, which has the place of
the `;` that was there. -/
theorem parse_drafts_open_twice :
    let source := "DELETE FROM t; SELECT * FROM t;"
    let word (w : String) (column : Int) : Token := ⟨.keyword, w, ⟨1, column⟩⟩
    let name (column : Int) : Token := ⟨.identifier, "t", ⟨1, column⟩⟩
    ∃ script : List Draft, script.map Draft.tokens =
        [[word "DELETE" 1, word "FROM" 8, name 13],
          [word "SELECT" 16, ⟨.operator, "*", ⟨1, 23⟩⟩, word "FROM" 25, name 30]] ∧
      Reads (scan source) 0 (script.map Draft.sentence) ∧
      let draft := parse (script.flatMap Draft.tokens ++ [endMark (lexemes source)]) 0
      draft.tree.children.map (·.children.getLast?) =
          [some (Tree.leaf .error (word "SELECT" 16)),
            some (Tree.leaf .error ⟨.endOfInput, "", ⟨1, 31⟩⟩)] ∧
        draft.diagnostics =
          [⟨⟨some 1, some 16⟩, "Expected ';' at end of statement, found 'SELECT'"⟩,
            ⟨⟨some 1, some 31⟩, "Expected ';' at end of query, found end of input"⟩] := by
  intro source word name
  let deletion : Sentence := ⟨.delete, ⟨word "DELETE" 1, by decide +kernel⟩,
    .delete ⟨word "FROM" 8, by decide +kernel⟩ ⟨name 13, by decide +kernel⟩ none,
    ⟨⟨.delimiter, ";", ⟨1, 14⟩⟩, by decide +kernel⟩⟩
  let selection : Sentence := ⟨.select, ⟨word "SELECT" 16, by decide +kernel⟩,
    .select (.all ⟨⟨.operator, "*", ⟨1, 23⟩⟩, by decide +kernel⟩)
      ⟨word "FROM" 25, by decide +kernel⟩ ⟨name 30, by decide +kernel⟩ none none,
    ⟨⟨.delimiter, ";", ⟨1, 31⟩⟩, by decide +kernel⟩⟩
  let script : List Draft := [⟨deletion, false⟩, ⟨selection, false⟩]
  have hreads : Reads (scan source) 0 (script.map Draft.sentence) :=
    ⟨by decide +kernel, by decide +kernel⟩
  obtain ⟨-, hchildren, hdiagnostics⟩ := parse_drafts hreads (.inl rfl)
  refine ⟨script, rfl, hreads, ?_, ?_⟩
  · rw [hchildren]
    decide +kernel
  · rw [hdiagnostics]
    decide +kernel

end Grammar

end SqlScript
