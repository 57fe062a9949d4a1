import Mathlib.Data.List.Forall2
import SqlScript.Proofs.Check.Provenance
import SqlScript.Proofs.Grammar.Broken
import SqlScript.Proofs.Grammar.Spelling

/-!
Diagnostics have an order and an anchor, and do not cascade. What the parser reports of a text stands
at positions that grow, each that of a token which the message names; and between two reports the
parser has come past a `;` or a word that opens a statement. What the checker reports stands at a
token too.
-/

namespace SqlScript

/-! ## Reports and tokens -/

theorem Token.describe_ends {t : Token} (h : t.kind ≠ .endOfInput) :
    2 ≤ t.describe.toList.length ∧ ¬['u', 't'] <:+ t.describe.toList := by
  have hquoted (front : String) (lexeme : String) :
      2 ≤ (front ++ "'" ++ lexeme ++ "'").toList.length ∧
        ¬['u', 't'] <:+ (front ++ "'" ++ lexeme ++ "'").toList := by
    simp only [String.toList_append]
    refine ⟨by simp; omega, ?_⟩
    rintro ⟨taken, hsuffix⟩
    have hlast := congrArg List.getLast? hsuffix
    rw [List.getLast?_append_of_ne_nil _ (by decide), List.getLast?_append_of_ne_nil _ (by decide)]
      at hlast
    revert hlast
    decide
  -- all names but that of the end are in quotes, or are those of the two open ends
  have hname := hquoted "" t.lexeme
  rw [String.empty_append] at hname
  rw [describe]
  cases hk : t.kind with
  | endOfInput => exact absurd hk h
  | error =>
    simp only
    cases t.fault with
    | unclosedComment => exact ⟨by decide, by decide⟩
    | unclosedString => exact ⟨by decide, by decide⟩
    | invalidCharacter lexeme => exact hquoted "invalid character " lexeme
  | _ => exact hname

namespace Diagnostic

def SaysEnd (d : Diagnostic) : Prop := ", found end of input".toList <:+ d.message.toList

/-- The diagnostic is about the token: it stands there and names it, as the end of the text only if
that is what it is. -/
structure Names (d : Diagnostic) (t : Token) : Prop where
  place_eq : d.place = t.place
  message_eq : ∃ message, d.message = message ++ ", found " ++ t.describe
  isEnd_iff : d.SaysEnd ↔ t.kind = .endOfInput

def Reports (ts : List Token) (d : Diagnostic) (i : Nat) : Prop :=
  ∃ t, ts[i]? = some t ∧ d.Names t

def Precedes (d e : Diagnostic) : Prop :=
  ∃ p q : Position, d.place = p.place ∧ e.place = q.place ∧ p.Precedes q

theorem saysEnd_found_iff (message : String) (t : Token) :
    (found message t).SaysEnd ↔ t.kind = .endOfInput := by
  rw [SaysEnd, found, String.toList_append]
  constructor
  · intro h
    by_contra hk
    obtain ⟨hlength, hends⟩ := Token.describe_ends hk
    have hut : ['u', 't'] <:+ ", found end of input".toList := by decide
    exact hends (List.suffix_of_suffix_length_le (hut.trans h) (List.suffix_append _ _) hlength)
  · intro hk
    have hdescribe : t.describe = "end of input" := by rw [Token.describe, hk]
    rw [hdescribe, String.toList_append, List.append_assoc]
    exact List.suffix_append _ _

theorem names_found (message : String) (t : Token) : (found message t).Names t :=
  ⟨rfl, ⟨message, rfl⟩, saysEnd_found_iff message t⟩

end Diagnostic

/-! ## What is left at a report -/

namespace Grammar

def isBarrier (t : Token) : Bool := t.isDelimiter ";" || Statement.isOpener t

/-- What is left lies behind a barrier of what was left before. -/
def Resumes (rest later : List Token) : Prop :=
  ∃ passed, rest = passed ++ later ∧ ∃ t ∈ passed, isBarrier t = true

/-- What is left of some tokens, and behind the word that opens a statement if that is the first. -/
def Behind (ts rest : List Token) : Prop :=
  rest <:+ ts ∧ ∀ u us, ts = u :: us → Statement.isOpener u = true → rest <:+ us

theorem Behind.of_suffix {ts rest later : List Token} (h : Behind ts rest) (hs : later <:+ rest) :
    Behind ts later :=
  ⟨hs.trans h.1, fun u us hts hu => hs.trans (h.2 u us hts hu)⟩

theorem statement_rest_behind (room : Nat) (stop : Token) (ts : List Token) :
    Behind ts (statement room stop ts).rest := by
  refine ⟨statement_suffix room stop ts, ?_⟩
  rintro u us rfl hu
  obtain ⟨s, hs⟩ := Statement.exists_of_isOpener hu
  rw [statement, hs]
  exact s.attempt_suffix room stop u us

theorem recover_cases (ts : List Token) :
    recover ts = [] ∨ (∃ u us, recover ts = u :: us ∧ Statement.isOpener u = true) ∨
      ∃ passed, ts = passed ++ recover ts ∧ ∃ t ∈ passed, t.isDelimiter ";" = true := by
  fun_induction recover ts with
  | case1 => exact .inl rfl
  | case2 t ts ht => exact .inr (.inl ⟨t, ts, rfl, ht⟩)
  | case3 t ts _ ht => exact .inr (.inr ⟨[t], rfl, t, List.mem_singleton_self t, ht⟩)
  | case4 t ts _ _ ih =>
    rcases ih with hnil | hopener | ⟨passed, hts, u, hu, hmark⟩
    · exact .inl hnil
    · exact .inr (.inl hopener)
    · exact .inr (.inr ⟨t :: passed, congrArg (t :: ·) hts, u, List.mem_cons_of_mem _ hu, hmark⟩)

theorem resumes_of_behind {ts later : List Token} (hne : recover ts ≠ [])
    (h : Behind (recover ts) later) : Resumes ts later := by
  rcases recover_cases ts with hnil | ⟨u, us, hrecover, hu⟩ | ⟨passed, hts, t, ht, hmark⟩
  · exact absurd hnil hne
  · -- the next statement passes the word that recovery has stopped at
    obtain ⟨front, hfront⟩ := recover_suffix ts
    obtain ⟨mid, hmid⟩ := h.2 u us hrecover hu
    refine ⟨front ++ u :: mid, ?_, u, by simp, by simp [isBarrier, hu]⟩
    rw [← hfront, hrecover, ← hmid, List.append_assoc, List.cons_append]
  · obtain ⟨mid, hmid⟩ := h.1
    refine ⟨passed ++ mid, ?_, t, List.mem_append_left _ ht, by simp [isBarrier, hmark]⟩
    rw [List.append_assoc, hmid, ← hts]

/-- Each round that fails reports the first token that it leaves, and the later ones leave what is
behind a barrier. -/
theorem exists_rests (room : Nat) (stop : Token) (panic : Bool) (ts : List Token) :
    ∃ rests,
      List.Forall₂ (fun rest (d : Diagnostic) => d.Names (current stop rest)) rests
        (failures (rounds room stop panic ts)) ∧
      (∀ rest ∈ rests, Behind ts rest) ∧ rests.Pairwise Resumes := by
  fun_induction rounds room stop panic ts with
  | case1 => exact ⟨[], .nil, List.forall_mem_nil _, .nil⟩
  | case2 panic t ts a ih =>
    obtain ⟨rests, hnames, hbehind, hresumes⟩ := ih
    have hrest : Behind (t :: ts) a.rest := statement_rest_behind room stop (t :: ts)
    have hlater : ∀ rest ∈ rests, Behind (t :: ts) rest := fun rest hr =>
      hrest.of_suffix ((hbehind rest hr).1.trans (a.next_suffix panic))
    cases hc : a.complaint with
    | none =>
      refine ⟨rests, ?_, hlater, hresumes⟩
      rwa [Attempt.blame, hc]
    | some why =>
      have hnext : a.next panic = recover a.rest := by simp [Attempt.next, hc]
      rw [hnext] at hnames hbehind
      refine ⟨a.rest :: rests, ?_, List.forall_mem_cons.2 ⟨hrest, hlater⟩, ?_⟩
      · rw [Attempt.blame, hc, hnext]
        exact .cons (Diagnostic.names_found _ _) hnames
      · refine List.pairwise_cons.2 ⟨fun later hl => ?_, hresumes⟩
        refine resumes_of_behind (fun hnil => ?_) (hbehind later hl)
        rw [hnil, rounds] at hnames
        cases hnames
        cases hl

/-! ## What is recorded -/

theorem exists_of_forall₂ {α β : Type} {R : α → β → Prop} {as : List α} {bs : List β}
    (h : List.Forall₂ R as bs) {b : β} (hb : b ∈ bs) : ∃ a, R a b := by
  obtain ⟨i, rfl⟩ := List.mem_iff_get.1 hb
  exact ⟨_, h.get (i.isLt.trans_eq h.length_eq.symm) i.isLt⟩

theorem pairwise_of_forall₂ {α β : Type} {R : α → β → Prop} {S : α → α → Prop} {as : List α}
    {bs : List β} (h : List.Forall₂ R as bs) (hs : as.Pairwise S) :
    bs.Pairwise fun b b' => ∃ a a', R a b ∧ R a' b' ∧ S a a' := by
  induction h with
  | nil => exact .nil
  | @cons a b as bs hab hall ih =>
    obtain ⟨hfirst, hs⟩ := List.pairwise_cons.1 hs
    refine List.pairwise_cons.2 ⟨fun b' hb' => ?_, ih hs⟩
    obtain ⟨a', ⟨ha', hab'⟩⟩ :=
      exists_of_forall₂ ((List.forall₂_and_left _ _).2 ⟨fun a ha => ha, hall⟩) hb'
    exact ⟨a, a', hab, hab', hfirst a' ha'⟩

/-- Of what the rounds report, all is recorded but perhaps the last, which then stands where the one
before it does. -/
theorem recorded_prefix (room : Nat) {stop : Token} {ts : List Token} (h : Placed stop ts) :
    let recorded := recordAll [] (failures (rounds room stop false ts))
    recorded <+: failures (rounds room stop false ts) ∧
      recorded.Pairwise fun d e => d.place ≠ e.place := by
  intro recorded
  rcases rounds_reported room rfl h with
    hapart | ⟨front, t, t', why, why', k, hrounds, hapart, hshared⟩
  · have hall : recorded = failures (rounds room stop false ts) :=
      recordAll_of_isChain hapart.isChain
    rw [hall]
    exact ⟨List.prefix_refl _, hapart⟩
  · have hplace : (Blame.diagnostic ⟨why, k⟩).place = (Blame.diagnostic ⟨why', stop⟩).place :=
      hshared.place_eq.symm
    have hfailures : failures (rounds room stop false ts) =
        failures (front ++ [⟨some t, some ⟨why, k⟩⟩]) ++ [Blame.diagnostic ⟨why', stop⟩] := by
      rw [hrounds, failures_append]
      rfl
    have hrecorded : recorded = failures (front ++ [⟨some t, some ⟨why, k⟩⟩]) := by
      have hconcat := recordAll_concat (by rwa [failures_append] at hapart) hplace
      rw [failures_append]
      change recordAll [] (failures (rounds room stop false ts)) = _
      rw [hfailures, failures_append]
      exact hconcat
    rw [hrecorded, hfailures]
    exact ⟨List.prefix_append _ _, hapart⟩

/-! ## Numbers of tokens -/

theorem getElem?_rest {ts rest : List Token} (stop : Token) (h : rest <:+ ts) :
    (ts ++ [stop])[ts.length - rest.length]? = some (current stop rest) := by
  obtain ⟨taken, rfl⟩ := h
  rw [List.length_append, Nat.add_sub_cancel, List.append_assoc,
    List.getElem?_append_right (Nat.le_refl _), Nat.sub_self]
  cases rest <;> rfl

theorem exists_barrier {ts rest later : List Token} (stop : Token) (h : rest <:+ ts)
    (hresumes : Resumes rest later) :
    ∃ t ∈ ((ts ++ [stop]).take (ts.length - later.length)).drop (ts.length - rest.length),
      isBarrier t = true := by
  obtain ⟨taken, rfl⟩ := h
  obtain ⟨passed, rfl, t, ht, hbarrier⟩ := hresumes
  refine ⟨t, ?_, hbarrier⟩
  have hlater : (taken ++ (passed ++ later)).length - later.length = (taken ++ passed).length := by
    simp only [List.length_append]
    omega
  rw [hlater, List.length_append, Nat.add_sub_cancel, ← List.append_assoc, List.append_assoc,
    List.take_left, List.drop_left]
  exact ht

end Grammar

/-! ## Texts -/

section

variable {source : String}

theorem getElem?_scan {i : Nat} {t : Token} (h : (scan source)[i]? = some t) :
    (lexemes source)[i]? = some t ∧ t.kind ≠ .endOfInput ∨
      i = (lexemes source).length ∧ t.kind = .endOfInput := by
  rw [scan, withEndMark, List.getElem?_append] at h
  split at h
  · exact .inl ⟨h, kind_of_mem_lexemes (List.mem_of_getElem? h)⟩
  · obtain ⟨hi, ht⟩ := List.getElem?_eq_some_iff.1 h
    rw [List.length_singleton] at hi
    refine .inr ⟨by omega, ?_⟩
    rw [← ht]
    simp [endMark]

theorem Diagnostic.Reports.unique {d : Diagnostic} {i j : Nat} (hi : d.Reports (scan source) i)
    (hj : d.Reports (scan source) j) : i = j := by
  obtain ⟨t, ht, hdt⟩ := hi
  obtain ⟨u, hu, hdu⟩ := hj
  -- the end mark shares its place with the last token, but not the words that name it
  have hend : t.kind = .endOfInput ↔ u.kind = .endOfInput := hdt.isEnd_iff.symm.trans hdu.isEnd_iff
  rcases getElem?_scan ht with ⟨hi, hkind⟩ | ⟨rfl, hkind⟩
  · rcases getElem?_scan hu with ⟨hj, -⟩ | ⟨-, hkind'⟩
    · have hplace : ((lexemes source).map Token.place)[i]? =
          ((lexemes source).map Token.place)[j]? := by
        rw [List.getElem?_map, List.getElem?_map, hi, hj, Option.map_some, Option.map_some,
          ← hdt.place_eq, hdu.place_eq]
      have hlt := (List.getElem?_eq_some_iff.1 hi).1
      exact (List.getElem?_inj (by simpa using hlt) (nodup_places source)).1 hplace
    · exact absurd (hend.2 hkind') hkind
  · rcases getElem?_scan hu with ⟨-, hkind'⟩ | ⟨rfl, -⟩
    · exact absurd (hend.1 hkind) hkind'
    · rfl

theorem precedes_of_resumes {rest later : List Token} (h : rest <:+ lexemes source)
    (hresumes : Grammar.Resumes rest later) :
    let stop := endMark (lexemes source)
    (Grammar.current stop rest).place ≠ (Grammar.current stop later).place →
      (Grammar.current stop rest).position.Precedes (Grammar.current stop later).position := by
  intro stop hne
  obtain ⟨passed, rfl, w, hw, -⟩ := hresumes
  obtain ⟨u, mid, rfl⟩ := List.exists_cons_of_ne_nil (List.ne_nil_of_mem hw)
  have hfirst := (List.pairwise_cons.1 ((lexemes_sorted source).sublist h.sublist)).1
  cases later with
  | cons v later => exact hfirst v (List.mem_append_right _ (List.mem_cons_self ..))
  | nil =>
    -- the end mark stands at the last of what was left
    have hmark : stop = endMark (u :: mid ++ []) := by
      obtain ⟨taken, htaken⟩ := h
      have hlexemes : stop = endMark (taken ++ (u :: mid ++ [])) := by rw [htaken]
      rw [hlexemes]
      exact Grammar.endMark_append taken (List.cons_ne_nil _ _)
    have hne' : u :: mid ++ [] ≠ [] := List.cons_ne_nil _ _
    obtain ⟨x, hx, hplace⟩ := Grammar.exists_place_endMark hne'
    rw [← hmark] at hplace
    rcases List.mem_cons.1 hx with rfl | hx
    · exact absurd hplace.symm hne
    · have hlast := hfirst x hx
      rwa [← Position.place_injective hplace] at hlast

end

namespace Check

theorem exists_lexeme_of_finding {tokens : List Token} {limit : Int} {d : Diagnostic}
    (h : d ∈ (analyze (Grammar.parse tokens limit).tree).diagnostics) :
    ∃ t ∈ Grammar.before tokens, d.place = t.place := by
  obtain ⟨s, hs, hplace⟩ : ∃ s ∈ (Grammar.parse tokens limit).tree.children,
      d.place ∈ s.lexical.map Tree.place := by
    rw [(isScript_parse tokens limit).diagnostics_analyze] at h
    rcases List.mem_append.1 h with h | h
    · obtain ⟨s, hs, hplace⟩ := created_within d h
      exact ⟨s, (List.mem_filter.1 hs).1, hplace⟩
    · obtain ⟨s, hs, hd⟩ := List.mem_flatMap.1 h
      exact ⟨s, (List.mem_filter.1 hs).1, queried_within hs d hd⟩
  obtain ⟨leaf, hleaf, hplace⟩ := List.mem_map.1 hplace
  obtain ⟨kept, hkept, hshows⟩ := Grammar.exists_kept tokens limit
  have hmem : leaf ∈ (Grammar.parse tokens limit).tree.lexical := Tree.lexical_subset hs hleaf
  have hplaces := List.mem_map_of_mem (f := Tree.place) hmem
  rw [Tree.map_place_of_shows hshows, hplace] at hplaces
  obtain ⟨t, ht, htplace⟩ := List.mem_map.1 hplaces
  exact ⟨t, hkept.subset ht, htplace.symm⟩

end Check

namespace Grammar

theorem exists_reported_rests (source : String) (limit : Int) :
    ∃ rests, List.Forall₂ (fun rest (d : Diagnostic) => Behind (lexemes source) rest ∧
        d.Names (current (endMark (lexemes source)) rest)) rests
        (parse (scan source) limit).diagnostics ∧
      rests.Pairwise Resumes ∧
      (parse (scan source) limit).diagnostics.Pairwise fun d e => d.place ≠ e.place := by
  have hdiagnostics : (parse (scan source) limit).diagnostics =
      recordAll [] (failures (rounds (roomOf limit) (endMark (lexemes source)) false
        (lexemes source))) := by
    rw [← roundsOf_scan]
    exact diagnostics_parse (scan source) limit
  obtain ⟨rests, hnames, hbehind, hresumes⟩ :=
    exists_rests (roomOf limit) (endMark (lexemes source)) false (lexemes source)
  obtain ⟨⟨unrecorded, hfailures⟩, hapart⟩ := recorded_prefix (roomOf limit) (placed_lexemes source)
  rw [← hdiagnostics] at hfailures hapart
  refine ⟨rests.take (parse (scan source) limit).diagnostics.length, ?_,
    hresumes.sublist (List.take_sublist _ _), hapart⟩
  refine List.forall₂_take_append _ _ unrecorded ?_
  rw [hfailures]
  exact (List.forall₂_and_left _ _).2 ⟨hbehind, hnames⟩

/-- The syntax diagnostics of a text stand at positions that grow. Each is about one token, which its
message names, and between the tokens of any two, from the first one on and before the second, there
is a `;` or a word that opens a statement. What the checker reports of the tree stands at tokens, too,
but never at the end mark alone. -/
theorem parse_anchored (source : String) (limit : Int) :
    let ts := scan source
    let p := parse ts limit
    (∀ d ∈ p.diagnostics, ∃! i, d.Reports ts i) ∧
      p.diagnostics.Pairwise (fun d e =>
        d.Precedes e ∧ ∀ i j, d.Reports ts i → e.Reports ts j →
          ∃ t ∈ (ts.take j).drop i, isBarrier t = true) ∧
      ∀ d ∈ (Check.analyze p.tree).diagnostics,
        ∃ t ∈ ts, t.kind ≠ .endOfInput ∧ d.place = t.place := by
  intro ts p
  set stop := endMark (lexemes source)
  obtain ⟨rests, hkept, hresumes, hapart⟩ := exists_reported_rests source limit
  have hreports {rest : List Token} {d : Diagnostic} (hrest : Behind (lexemes source) rest)
      (hd : d.Names (current stop rest)) :
      d.Reports ts ((lexemes source).length - rest.length) :=
    ⟨_, getElem?_rest stop hrest.1, hd⟩
  refine ⟨fun d hd => ?_, ?_, fun d hd => ?_⟩
  · obtain ⟨rest, hrest, hnames⟩ := exists_of_forall₂ hkept hd
    exact ⟨_, hreports hrest hnames, fun j hj => hj.unique (hreports hrest hnames)⟩
  · refine ((pairwise_of_forall₂ hkept hresumes).and hapart).imp ?_
    rintro d e ⟨⟨rest, later, ⟨hrest, hd⟩, ⟨hlater, he⟩, hbetween⟩, hne⟩
    rw [hd.place_eq, he.place_eq] at hne
    refine ⟨⟨_, _, hd.place_eq, he.place_eq, precedes_of_resumes hrest.1 hbetween hne⟩, ?_⟩
    intro i j hi hj
    rw [hi.unique (hreports hrest hd), hj.unique (hreports hlater he)]
    exact exists_barrier stop hrest.1 hbetween
  · obtain ⟨t, ht, hplace⟩ := Check.exists_lexeme_of_finding hd
    rw [before_scan] at ht
    exact ⟨t, List.mem_append_left _ ht, kind_of_mem_lexemes ht, hplace⟩

end Grammar

end SqlScript
