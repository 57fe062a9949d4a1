import SqlScript.Proofs.Grammar.Parts
import SqlScript.Proofs.Grammar.Rounds
import SqlScript.Proofs.Grammar.Unended

/-!
Every statement that is given up is reported at the token where that happened, each by a diagnostic
of its own. The one exception is a word that opens a statement and is the last token of a text: if a
statement is given up at it, and so another one behind it, at the end, the two stand at one place,
and only the first is reported.
-/

namespace SqlScript.Grammar
open SqlScript.Phrase SqlScript.Tree

/-! ## Places of blame -/

/-- The tokens stand at places of their own, and the end mark stands at the last of them. -/
structure Placed (stop : Token) (ts : List Token) : Prop where
  apart : ts.Pairwise fun t u => t.place ≠ u.place
  stop_eq : ∀ t ∈ ts.getLast?, stop.place = t.place

namespace Placed

variable {stop t : Token} {ts rest : List Token}

theorem of_suffix (h : Placed stop ts) (hs : rest <:+ ts) : Placed stop rest := by
  refine ⟨h.apart.sublist hs.sublist, fun t ht => h.stop_eq t ?_⟩
  obtain ⟨taken, rfl⟩ := hs
  have hne : rest ≠ [] := by
    rintro rfl
    cases ht
  rwa [List.getLast?_append_of_ne_nil taken hne]

theorem ne_of_mem (h : Placed stop (t :: ts)) (hne : ts ≠ []) {u : Token} (hu : u ∈ ts ++ [stop]) :
    t.place ≠ u.place := by
  have hfirst := (List.pairwise_cons.1 h.apart).1
  rcases List.mem_append.1 hu with hu | hu
  · exact hfirst u hu
  · have hlast : (t :: ts).getLast? = some (ts.getLast hne) := by
      rw [List.getLast?_cons_of_ne_nil hne, List.getLast?_eq_some_getLast hne]
    rw [List.mem_singleton.1 hu, h.stop_eq _ hlast]
    exact hfirst _ (List.getLast_mem hne)

end Placed

theorem token_mem_of_opener {room : Nat} {stop : Token} {panic : Bool} {t : Token}
    {ts : List Token} (ht : Statement.isOpener t = true) {r : Round} {b : Blame}
    (hr : r ∈ rounds room stop panic (t :: ts)) (hb : r.blame = some b) :
    b.token ∈ ts ++ [stop] := by
  obtain ⟨s, hs⟩ := Statement.exists_of_isOpener ht
  have hrest : (statement room stop (t :: ts)).rest <:+ ts := by
    rw [statement, hs]
    exact s.attempt_suffix room stop t ts
  rw [rounds] at hr
  rcases List.mem_cons.1 hr with rfl | hr
  · obtain ⟨why, -, rfl⟩ := Option.map_eq_some_iff.1 hb
    exact current_mem hrest
  · have hnext := ((statement room stop (t :: ts)).next_suffix panic).trans hrest
    rcases List.mem_append.1 (token_mem_of_blame hr hb) with hmem | hmem
    · exact List.mem_append_left _ (hnext.subset hmem)
    · exact List.mem_append_right _ hmem

theorem recover_cons_suffix {t : Token} (ht : Statement.isOpener t = false) (ts : List Token) :
    recover (t :: ts) <:+ ts := by
  rw [recover, ht]
  split
  · rename_i h
    cases h
  · split
    · exact List.suffix_refl _
    · exact recover_suffix ts

/-! ## Marks of failures -/

/-- The node of a statement that was given up: its last child is the mark of that. -/
def breaksOff (t : Tree) : Bool := t.children.getLast?.any (·.kind == .error)

def BrokenAt (t : Tree) (d : Diagnostic) : Prop :=
  ∃ mark, t.children.getLast? = some mark ∧ mark.kind = .error ∧ d.place = mark.place

/-- In their order, each of the statements has a diagnostic of its own. -/
def Matched (ts : List Tree) (ds : List Diagnostic) : Prop :=
  ∃ own, own.Sublist ds ∧ List.Forall₂ BrokenAt ts own

theorem Matched.length_le {ts : List Tree} {ds : List Diagnostic} (h : Matched ts ds) :
    ts.length ≤ ds.length := by
  obtain ⟨own, hown, hmatch⟩ := h
  exact hmatch.length_eq ▸ hown.length_le

theorem kind_ne_error_of_part {t : Tree} (h : Part t) : ∀ u ∈ t.walk, u.kind ≠ .error := by
  intro u hu herror
  have hpart := (h.inside u hu).1
  rw [herror] at hpart
  cases hpart

section

variable {s : Statement} {lead : Token} {parts : List Tree} {mark : Option Token} {t : Tree}

theorem Stated.children_eq (h : Stated s lead parts mark t) :
    t.children = leaf .keyword lead :: parts ++ mark.toList.map (leaf .error) := by
  rw [h.tree_eq]
  rfl

theorem Stated.part_of_mem (h : Stated s lead parts mark t) :
    ∀ c ∈ leaf .keyword lead :: parts, Part c :=
  List.forall_mem_cons.2 ⟨.leaf rfl lead, h.part⟩

theorem Stated.filter_error (h : Stated s lead parts mark t) :
    t.walk.filter (·.kind == .error) = mark.toList.map (leaf .error) := by
  have hnone : ((leaf .keyword lead :: parts).flatMap walk).filter (·.kind == .error) = [] := by
    refine List.filter_eq_nil_iff.2 fun u hu herror => ?_
    obtain ⟨c, hc, huc⟩ := List.mem_flatMap.1 hu
    exact kind_ne_error_of_part (h.part_of_mem c hc) u huc (beq_iff_eq.1 herror)
  have hkind : (t.kind == .error) = false := by
    rw [h.tree_eq]
    cases s <;> rfl
  rw [walk_eq, List.filter_cons_of_neg (by simp [hkind]), h.children_eq, List.flatMap_append,
    List.filter_append, hnone, List.nil_append]
  cases mark <;> rfl

theorem Stated.getLast?_children {u : Token} (h : Stated s lead parts (some u) t) :
    t.children.getLast? = some (leaf .error u) := by
  rw [h.children_eq]
  exact List.getLast?_concat

theorem Stated.breaksOff_eq (h : Stated s lead parts mark t) : breaksOff t = mark.isSome := by
  cases mark with
  | some u =>
    rw [breaksOff, h.getLast?_children]
    rfl
  | none =>
    have hlast := List.getLast?_eq_some_getLast (List.cons_ne_nil (leaf .keyword lead) parts)
    have hpart := h.part_of_mem _ (List.getLast_mem (List.cons_ne_nil (leaf .keyword lead) parts))
    rw [breaksOff, h.children_eq, Option.toList_none, List.map_nil, List.append_nil, hlast]
    exact beq_eq_false_iff_ne.2 (kind_ne_error_of_part hpart _ (walk_eq _ ▸ List.mem_cons_self ..))

end

/-! ## Rounds -/

def failures (rs : List Round) : List Diagnostic := rs.filterMap Round.diagnostic?

def brokenOf (rs : List Round) : List Tree := (rs.filterMap (·.tree)).filter breaksOff

theorem brokenOf_append (a b : List Round) : brokenOf (a ++ b) = brokenOf a ++ brokenOf b := by
  simp [brokenOf]

theorem brokenOf_singleton {t : Tree} (h : breaksOff t = true) (blame : Option Blame) :
    brokenOf [⟨some t, blame⟩] = [t] := by
  simp [brokenOf, h]

theorem failures_append (a b : List Round) : failures (a ++ b) = failures a ++ failures b :=
  List.filterMap_append

theorem matched_rounds {room : Nat} {stop : Token} {panic : Bool} {ts : List Token}
    (rs : List Round) (hrs : rs ⊆ rounds room stop panic ts) :
    Matched (brokenOf rs) (failures rs) := by
  induction rs with
  | nil => exact ⟨[], List.Sublist.refl _, .nil⟩
  | cons r rs ih =>
    obtain ⟨own, hown, hmatch⟩ := ih fun x hx => hrs (List.mem_cons_of_mem _ hx)
    obtain ⟨tree, blame⟩ := r
    have hlater : own.Sublist (failures (⟨tree, blame⟩ :: rs)) :=
      hown.trans ((List.sublist_cons_self _ rs).filterMap _)
    cases tree with
    | none => exact ⟨own, hlater, hmatch⟩
    | some t =>
      obtain ⟨s, lead, parts, hstated⟩ := round_stated (hrs (List.mem_cons_self ..)) rfl
      have hbroken := hstated.breaksOff_eq
      rw [brokenOf, List.filterMap_cons]
      cases blame with
      | none => exact ⟨own, hlater, by simpa [hbroken, brokenOf] using hmatch⟩
      | some b =>
        refine ⟨b.diagnostic :: own, hown.cons_cons _, ?_⟩
        have ht : BrokenAt t b.diagnostic := ⟨_, hstated.getLast?_children, rfl, rfl⟩
        simpa [hbroken, brokenOf] using ⟨ht, hmatch⟩

/-- The last token opens a statement, at which the one before it was given up; the statement that it
opens finds nothing behind it, and is given up at the end mark, at the same place. -/
structure SharesEnd (stop : Token) (ts : List Token) (k : Token) (t t' : Tree) : Prop where
  last : ts.getLast? = some k
  opener : Statement.isOpener k = true
  first : t.children.getLast? = some (leaf .error k)
  second : t'.children = [leaf .keyword k, leaf .error stop]
  place_eq : stop.place = k.place

/-- All reports stand at places of their own, but perhaps for the last two, which share the end. -/
def Reported (stop : Token) (ts : List Token) (rs : List Round) : Prop :=
  (failures rs).Pairwise (fun d e => d.place ≠ e.place) ∨
    ∃ front t t' why why' k,
      rs = front ++ [⟨some t, some ⟨why, k⟩⟩] ++ [⟨some t', some ⟨why', stop⟩⟩] ∧
        (failures (front ++ [⟨some t, some ⟨why, k⟩⟩])).Pairwise (fun d e => d.place ≠ e.place) ∧
        SharesEnd stop ts k t t'

theorem SharesEnd.of_suffix {stop k : Token} {ts rest : List Token} {t t' : Tree}
    (h : SharesEnd stop rest k t t') (hs : rest <:+ ts) : SharesEnd stop ts k t t' := by
  refine { h with last := ?_ }
  obtain ⟨taken, rfl⟩ := hs
  have hne : rest ≠ [] := by
    rintro rfl
    cases h.last
  rw [List.getLast?_append_of_ne_nil taken hne, h.last]

theorem Reported.cons {stop : Token} {ts rest : List Token} {r : Round} {rs : List Round}
    (h : Reported stop rest rs) (hs : rest <:+ ts)
    (hr : ∀ d ∈ r.diagnostic?, ∀ e ∈ failures rs, d.place ≠ e.place) :
    Reported stop ts (r :: rs) := by
  have hcons {later : List Round} (hlater : later.Sublist rs)
      (hapart : (failures later).Pairwise fun d e => d.place ≠ e.place) :
      (failures (r :: later)).Pairwise fun d e => d.place ≠ e.place := by
    rw [failures, List.filterMap_cons]
    split
    · exact hapart
    · rename_i d hd
      refine List.pairwise_cons.2 ⟨fun e he => hr d hd e ?_, hapart⟩
      exact (hlater.filterMap _).subset he
  rcases h with h | ⟨front, t, t', why, why', k, rfl, h, hshared⟩
  · exact .inl (hcons (List.Sublist.refl _) h)
  · exact .inr ⟨r :: front, t, t', why, why', k, rfl, hcons (List.sublist_append_left ..) h,
      hshared.of_suffix hs⟩

theorem rounds_opener (room : Nat) (stop : Token) {k : Token} (hk : Statement.isOpener k = true) :
    ∃ t why, rounds room stop false [k] = [⟨some t, some ⟨why, stop⟩⟩] ∧
      t.children = [leaf .keyword k, leaf .error stop] := by
  obtain ⟨s, hs⟩ := Statement.exists_of_isOpener hk
  have hrun : ∃ why, Progress.run (s.parts room) [] = ⟨[], some why, []⟩ := by
    cases s <;> exact ⟨_, rfl⟩
  obtain ⟨why, hrun⟩ := hrun
  refine ⟨plain s.kind "" k.place [leaf .keyword k, leaf .error stop], why, ?_, rfl⟩
  rw [rounds, statement, hs]
  simp [Statement.attempt, hrun, Attempt.blame, Attempt.next, recover, rounds, current]

theorem exists_tree_of_rest {room : Nat} {stop t u : Token} {ts us : List Token}
    (h : (statement room stop (t :: ts)).rest = u :: us) (hu : Statement.isOpener u = true)
    {why : Complaint} (hc : (statement room stop (t :: ts)).complaint = some why) :
    ∃ tree, (statement room stop (t :: ts)).tree = some tree ∧
      tree.children.getLast? = some (leaf .error u) := by
  rw [statement] at h hc ⊢
  cases hs : Statement.ofToken? t with
  | some s =>
    rw [hs] at h hc
    obtain ⟨parts, hstated⟩ := s.attempt_stated room stop t ts rfl
    have hmark : ((s.attempt room stop t ts).blame stop).map (·.token) = some u := by
      rw [Attempt.blame, hc, h]
      rfl
    rw [hmark] at hstated
    exact ⟨_, rfl, hstated.getLast?_children⟩
  | none =>
    rw [hs] at h
    obtain ⟨rfl, -⟩ := List.cons_eq_cons.1 h
    rw [Statement.isOpener_eq, hs] at hu
    cases hu

theorem reported_of_last {room : Nat} {stop t u : Token} {ts : List Token}
    (h : Placed stop (t :: ts)) (hr : (statement room stop (t :: ts)).rest = [u])
    (hu : Statement.isOpener u = true) {why : Complaint}
    (hc : (statement room stop (t :: ts)).complaint = some why) :
    Reported stop (t :: ts) (⟨(statement room stop (t :: ts)).tree, some ⟨why, u⟩⟩ ::
      rounds room stop false (recover [u])) := by
  obtain ⟨tree, htree, hmark⟩ := exists_tree_of_rest hr hu hc
  obtain ⟨tree', why', hrounds, hchildren⟩ := rounds_opener room stop hu
  have hlast : (t :: ts).getLast? = some u := by
    obtain ⟨taken, htaken⟩ := statement_suffix room stop (t :: ts)
    rw [← htaken, hr, List.getLast?_concat]
  rw [recover, if_pos hu, hrounds, htree]
  exact .inr ⟨[], tree, tree', why, why', u, rfl, List.pairwise_singleton _ _, hlast, hu, hmark,
    hchildren, h.stop_eq u hlast⟩

/-- What a round reports stands apart from all that comes later, unless the next statement is opened
by the last token, at which the round was given up. -/
theorem ne_of_mem_failures {room : Nat} {stop u : Token} {us : List Token}
    (h : Placed stop (u :: us)) (hne : Statement.isOpener u = true → us ≠ []) :
    ∀ e ∈ failures (rounds room stop false (recover (u :: us))), u.place ≠ e.place := by
  intro e he
  obtain ⟨r, hr, hd⟩ := List.mem_filterMap.1 he
  obtain ⟨b, hb, rfl⟩ := Option.map_eq_some_iff.1 hd
  cases hu : Statement.isOpener u with
  | true =>
    rw [recover, if_pos hu] at hr
    exact h.ne_of_mem (hne hu) (token_mem_of_opener hu hr hb)
  | false =>
    have hsuffix := recover_cons_suffix hu us
    have hus : us ≠ [] := by
      rintro rfl
      rw [List.suffix_nil.1 hsuffix, rounds] at hr
      cases hr
    refine h.ne_of_mem hus ?_
    rcases List.mem_append.1 (token_mem_of_blame hr hb) with hmem | hmem
    · exact List.mem_append_left _ (hsuffix.subset hmem)
    · exact List.mem_append_right _ hmem

/-- The run: each round reports behind what the rounds before it blame. -/
theorem rounds_reported (room : Nat) {stop : Token} {panic : Bool} (hp : panic = false)
    {ts : List Token} (h : Placed stop ts) : Reported stop ts (rounds room stop panic ts) := by
  fun_induction rounds room stop panic ts with
  | case1 => exact .inl .nil
  | case2 panic t ts a ih =>
    subst hp
    have hrest : a.rest <:+ t :: ts := statement_suffix room stop (t :: ts)
    have hnext : a.next false <:+ t :: ts := (a.next_suffix false).trans hrest
    have hlater := ih rfl (h.of_suffix hnext)
    cases hc : a.complaint with
    | none =>
      refine hlater.cons hnext fun d hd => ?_
      rw [Round.diagnostic?, Attempt.blame, hc] at hd
      cases hd
    | some why =>
      -- the round blames the first token that it left, the later ones what is behind that
      have hn : a.next false = recover a.rest := by
        rw [Attempt.next, hc]
        rfl
      have hblame : a.blame stop = some ⟨why, current stop a.rest⟩ := by
        rw [Attempt.blame, hc]
        rfl
      rw [hn] at hlater hnext ⊢
      rw [hblame]
      cases hr : a.rest with
      | nil =>
        rw [hr] at hlater hnext
        refine hlater.cons hnext fun _ _ e he => ?_
        rw [recover, rounds] at he
        cases he
      | cons u us =>
        rw [hr] at hlater hnext hrest
        -- recovery stays at `u` if it opens a statement, so a lone `u` is read once more
        by_cases hlast : Statement.isOpener u = true ∧ us = []
        · obtain ⟨hu, rfl⟩ := hlast
          exact reported_of_last h hr hu hc
        · refine hlater.cons hnext fun d hd e he => ?_
          obtain rfl : d = Blame.diagnostic ⟨why, u⟩ := (Option.some.inj hd).symm
          exact ne_of_mem_failures (h.of_suffix hrest) (fun hu hus => hlast ⟨hu, hus⟩) e he

theorem recordAll_concat {ds : List Diagnostic} {d e : Diagnostic}
    (h : (ds ++ [d]).Pairwise fun d e => d.place ≠ e.place) (hplace : d.place = e.place) :
    recordAll [] (ds ++ [d] ++ [e]) = ds ++ [d] := by
  rw [recordAll_append, recordAll_of_isChain h.isChain, recordAll_cons, recordAll_nil, record,
    List.getLast?_concat, Option.map_some, if_pos (congrArg some hplace)]

theorem matched_recordAll (room : Nat) {stop : Token} {ts : List Token} (h : Placed stop ts) :
    let rs := rounds room stop false ts
    Matched (brokenOf rs) (recordAll [] (failures rs)) ∨
      ∃ front t t' k, brokenOf rs = front ++ [t, t'] ∧ [t, t'] <:+ rs.filterMap (·.tree) ∧
        SharesEnd stop ts k t t' ∧ Matched (front ++ [t]) (recordAll [] (failures rs)) := by
  intro rs
  rcases rounds_reported room rfl h with
    hapart | ⟨front, t, t', why, why', k, hrounds, hapart, hshared⟩
  · rw [recordAll_of_isChain hapart.isChain]
    exact .inl (matched_rounds rs (List.Subset.refl _))
  · have ht : breaksOff t = true := by
      rw [breaksOff, hshared.first]
      rfl
    have ht' : breaksOff t' = true := by
      rw [breaksOff, hshared.second]
      rfl
    have hsubset : front ++ [⟨some t, some ⟨why, k⟩⟩] ⊆ rounds room stop false ts :=
      hrounds ▸ List.subset_append_left ..
    have hmatched := matched_rounds _ hsubset
    have hplace : (Blame.diagnostic ⟨why, k⟩).place = (Blame.diagnostic ⟨why', stop⟩).place :=
      hshared.place_eq.symm
    rw [failures_append] at hapart
    rw [brokenOf_append, brokenOf_singleton ht, failures_append] at hmatched
    have hrs : rs = front ++ [⟨some t, some ⟨why, k⟩⟩] ++ [⟨some t', some ⟨why', stop⟩⟩] := hrounds
    refine .inr ⟨brokenOf front, t, t', k, ?_, ?_, hshared, ?_⟩
    · rw [hrs, brokenOf_append, brokenOf_append, brokenOf_singleton ht, brokenOf_singleton ht',
        List.append_assoc, List.singleton_append]
    · exact ⟨front.filterMap (·.tree), by simp [hrs]⟩
    · rw [hrs, failures_append, failures_append]
      exact (recordAll_concat hapart hplace).symm ▸ hmatched

/-! ## Texts -/

theorem placed_lexemes (source : String) :
    Placed (endMark (lexemes source)) (lexemes source) := by
  refine ⟨List.pairwise_map.1 (nodup_places source), ?_⟩
  intro t ht
  have hne : lexemes source ≠ [] := by
    intro hnil
    rw [hnil] at ht
    cases ht
  rw [place_endMark hne]
  rw [Option.mem_def, List.getLast?_eq_some_getLast hne, Option.some.injEq] at ht
  rw [ht]

theorem stopOf_scan (source : String) : stopOf (closed (scan source)) = endMark (lexemes source) := by
  rw [scan, withEndMark,
    stopOf_closed_append (fun _ => isEnd_of_mem_lexemes) (List.cons_ne_nil _ _)]
  rfl

theorem roundsOf_scan (source : String) (limit : Int) :
    roundsOf (scan source) limit =
      rounds (roomOf limit) (endMark (lexemes source)) false (lexemes source) :=
  roundsOf_concat (fun _ => isEnd_of_mem_lexemes) rfl limit

theorem filter_error_parse (tokens : List Token) (limit : Int) :
    (parse tokens limit).tree.walk.filter (·.kind == .error) =
      ((parse tokens limit).tree.children.filter breaksOff).filterMap (·.children.getLast?) := by
  have hall (ts : List Tree) (hts : ∀ t ∈ ts, ∃ s lead parts mark, Stated s lead parts mark t) :
      (ts.flatMap walk).filter (·.kind == .error) =
        (ts.filter breaksOff).filterMap (·.children.getLast?) := by
    induction ts with
    | nil => rfl
    | cons t ts ih =>
      rw [List.forall_mem_cons] at hts
      obtain ⟨⟨s, lead, parts, mark, h⟩, hts⟩ := hts
      rw [List.flatMap_cons, List.filter_append, ih hts, h.filter_error, List.filter_cons,
        h.breaksOff_eq]
      cases mark with
      | none => rfl
      | some u =>
        have hlast := h.getLast?_children
        simp [hlast]
  have hkind : ((parse tokens limit).tree.kind == .error) = false := rfl
  rw [walk_eq, List.filter_cons_of_neg (by simp [hkind])]
  exact hall _ fun t ht => exists_stated ht

/-- Every statement that is given up is reported at the token where that happened, each by a
diagnostic of its own, in their order. The exception is a text whose last token opens a statement,
at which the one before it was given up: the last statement, which is that word alone, is given up
at the end of the text, which stands at the same place, and the two share one diagnostic. -/
theorem parse_reports_broken (source : String) (limit : Int) :
    let p := parse (scan source) limit
    let marks := p.tree.walk.filter (·.kind == .error)
    let broken := p.tree.children.filter breaksOff
    marks = broken.filterMap (·.children.getLast?) ∧
      ((Matched broken p.diagnostics ∧ marks.length ≤ p.diagnostics.length) ∨
        ∃ front t t' k, broken = front ++ [t, t'] ∧ [t, t'] <:+ p.tree.children ∧
          SharesEnd (endMark (lexemes source)) (lexemes source) k t t' ∧
          Matched (front ++ [t]) p.diagnostics ∧ marks.length ≤ p.diagnostics.length + 1) := by
  intro p marks broken
  have hmarks : marks = broken.filterMap (·.children.getLast?) := filter_error_parse _ limit
  have hlength : marks.length ≤ broken.length := hmarks ▸ List.length_filterMap_le ..
  have hchildren : p.tree.children = (roundsOf (scan source) limit).filterMap (·.tree) :=
    children_parse (scan source) limit
  have hbroken : broken = brokenOf (roundsOf (scan source) limit) :=
    congrArg (List.filter breaksOff) hchildren
  have hdiagnostics : p.diagnostics = recordAll [] (failures (roundsOf (scan source) limit)) :=
    diagnostics_parse (scan source) limit
  refine ⟨hmarks, ?_⟩
  rw [roundsOf_scan] at hchildren hbroken hdiagnostics
  rcases matched_recordAll (roomOf limit) (placed_lexemes source) with
    h | ⟨front, t, t', k, hfront, hlast, hshared, h⟩
  · rw [← hbroken, ← hdiagnostics] at h
    exact .inl ⟨h, hlength.trans h.length_le⟩
  · rw [← hbroken] at hfront
    rw [← hchildren] at hlast
    rw [← hdiagnostics] at h
    refine .inr ⟨front, t, t', k, hfront, hlast, hshared, h, ?_⟩
    have hle := h.length_le
    rw [hfront] at hlength
    simp only [List.length_append, List.length_cons, List.length_nil] at hlength hle
    omega

/-- Of two words that each open a statement, and nothing behind them, both statements end in the mark
of a failure, and only one diagnostic is there. -/
theorem one_report_select_select :
    let p := parse (scan "SELECT SELECT") 100
    (p.tree.children.filter breaksOff).length = 2 ∧
      (p.tree.walk.filter (·.kind == .error)).length = 2 ∧ p.diagnostics.length = 1 := by
  intro p
  refine ⟨?_, ?_, ?_⟩ <;> decide +kernel

end SqlScript.Grammar
