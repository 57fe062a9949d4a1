import SqlScript.Proofs.Grammar.Record
import SqlScript.Proofs.Grammar.Standing

/-!
What holds on every walk, however the session is driven: it stays between its tokens, it goes back up
as many levels as it went down, and its diagnostics are only added to, never twice at one place.
-/

namespace SqlScript.Grammar

/-- No two neighbours stand at one place. -/
def Spaced (ds : List Diagnostic) : Prop := ds.IsChain fun d e => d.place ≠ e.place

theorem spaced_record {ds : List Diagnostic} (h : Spaced ds) (d : Diagnostic) :
    Spaced (record ds d) := by
  unfold record
  split
  · exact h
  · rename_i hplace
    refine List.isChain_append.2 ⟨h, List.isChain_singleton d, ?_⟩
    rintro last hlast _ ⟨⟩ hsame
    rw [hlast, Option.map_some, hsame] at hplace
    exact hplace rfl

namespace Session

/-- The session has not gone back, and its diagnostics have only been added to. -/
def Onward (s later : Session) : Prop :=
  s.index ≤ later.index ∧ s.diagnostics <+: later.diagnostics

theorem Onward.refl (s : Session) : s.Onward s := ⟨Nat.le_refl _, List.prefix_rfl⟩

theorem Onward.trans {s mid later : Session} (h : s.Onward mid) (h' : mid.Onward later) :
    s.Onward later :=
  ⟨Nat.le_trans h.1 h'.1, h.2.trans h'.2⟩

theorem onward_next (s : Session) : s.Onward s.next := ⟨Nat.le_succ _, List.prefix_rfl⟩

theorem onward_failed (s : Session) (message : String) (t : Token) : s.Onward (s.failed message t) :=
  ⟨Nat.le_refl _, prefix_record _ _⟩

theorem onward_calmed (s : Session) : s.Onward s.calmed := .refl s

theorem onward_down (s : Session) : s.Onward s.down := .refl s

theorem onward_up (s : Session) : s.Onward s.up := .refl s

end Session

/-- Every session on the way is onward from those before it. -/
structure Rises (s : Session) (moments : List Moment) (later : Session) : Prop where
  onward : s.Onward later
  between : ∀ m ∈ moments, s.Onward m.session ∧ m.session.Onward later
  pairs : moments.Pairwise fun m m' => m.session.Onward m'.session

namespace Rises

variable {s mid later : Session} {moments more : List Moment}

theorem nil (s : Session) : Rises s [] s :=
  ⟨.refl s, fun _ hm => absurd hm List.not_mem_nil, .nil⟩

theorem single (h : s.Onward later) (deed : Deed) : Rises s [⟨deed, later⟩] later :=
  ⟨h, List.forall_mem_singleton.2 ⟨h, .refl later⟩, List.pairwise_singleton ..⟩

theorem append (h : Rises s moments mid) (h' : Rises mid more later) :
    Rises s (moments ++ more) later := by
  refine ⟨h.onward.trans h'.onward, ?_, List.pairwise_append.2 ⟨h.pairs, h'.pairs, ?_⟩⟩
  · intro m hm
    rcases List.mem_append.1 hm with hm | hm
    · exact ⟨(h.between m hm).1, (h.between m hm).2.trans h'.onward⟩
    · exact ⟨h.onward.trans (h'.between m hm).1, (h'.between m hm).2⟩
  · exact fun m hm m' hm' => (h.between m hm).2.trans (h'.between m' hm').1

end Rises

namespace Walk

variable {s later : Session} {moments : List Moment}

/-- An invariant of the single steps. -/
theorem preserves {P : Session → Prop}
    (hnext : ∀ (s : Session) (t : Token), s.current? = some t → isEnd t = false → P s → P s.next)
    (hfailed : ∀ (s : Session) (message : String) (t : Token), P s → P (s.failed message t))
    (hcalmed : ∀ s : Session, P s → P s.calmed) (hdown : ∀ s : Session, P s → P s.down)
    (hup : ∀ s : Session, P s → P s.up) (h : Walk s moments later) (hs : P s) :
    P later ∧ ∀ m ∈ moments, P m.session := by
  induction h with
  | stay => exact ⟨hs, by simp⟩
  | passed ht hend => simpa using hnext _ _ ht hend hs
  | failed s message t => simpa using hfailed s message t hs
  | refused => simpa using hs
  | calmed s => simpa using hcalmed s hs
  | @nested s later moments _ _ ih =>
    obtain ⟨hlater, hmoments⟩ := ih (hdown s hs)
    refine ⟨hup later hlater, ?_⟩
    simpa [or_imp, forall_and] using ⟨hdown s hs, hmoments, hup later hlater⟩
  | trans _ _ ih ih' =>
    obtain ⟨hmid, hmoments⟩ := ih hs
    obtain ⟨hlater, hmore⟩ := ih' hmid
    exact ⟨hlater, List.forall_mem_append.2 ⟨hmoments, hmore⟩⟩

theorem standing (h : Walk s moments later) (hs : s.Standing) :
    (later.Standing ∧ later.tokens = s.tokens) ∧
      ∀ m ∈ moments, m.session.Standing ∧ m.session.tokens = s.tokens := by
  refine h.preserves (P := fun m => m.Standing ∧ m.tokens = s.tokens) ?_ ?_ ?_ ?_ ?_ ⟨hs, rfl⟩
  · rintro s t ht hend ⟨hs, htokens⟩
    refine ⟨?_, htokens⟩
    cases hahead : s.ahead with
    | cons u us => exact hs.next hahead
    | nil =>
      have hstop : isEnd t = true := by
        rw [hs.current?_eq, hahead] at ht
        cases ht
        exact hs.isEnd_stop
      simp [hend] at hstop
  · exact fun _ _ _ ⟨hs, htokens⟩ => ⟨⟨hs.index_le, hs.ended⟩, htokens⟩
  · exact fun _ ⟨hs, htokens⟩ => ⟨⟨hs.index_le, hs.ended⟩, htokens⟩
  · exact fun _ ⟨hs, htokens⟩ => ⟨⟨hs.index_le, hs.ended⟩, htokens⟩
  · exact fun _ ⟨hs, htokens⟩ => ⟨⟨hs.index_le, hs.ended⟩, htokens⟩

theorem spaced (h : Walk s moments later) (hs : Spaced s.diagnostics) :
    Spaced later.diagnostics ∧ ∀ m ∈ moments, Spaced m.session.diagnostics :=
  h.preserves (fun _ _ _ _ hs => hs) (fun _ _ _ hs => spaced_record hs _) (fun _ hs => hs)
    (fun _ hs => hs) (fun _ hs => hs) hs

/-- What stays from beginning to end. -/
theorem frame (h : Walk s moments later) :
    later.tokens = s.tokens ∧ later.limit = s.limit ∧ later.depth = s.depth := by
  induction h with
  | nested _ _ ih =>
    obtain ⟨htokens, hlimit, hdepth⟩ := ih
    refine ⟨htokens, hlimit, ?_⟩
    simp only [Session.up, hdepth, Session.down, Int.add_sub_cancel]
  | trans _ _ ih ih' => exact ⟨ih'.1.trans ih.1, ih'.2.1.trans ih.2.1, ih'.2.2.trans ih.2.2⟩
  | stay | passed | failed | refused | calmed => exact ⟨rfl, rfl, rfl⟩

/-- On the way the session is never above its level, and below it only as far as the limit goes. -/
theorem depth_bounds (h : Walk s moments later) : ∀ m ∈ moments,
    s.depth ≤ m.session.depth ∧ m.session.depth ≤ max s.limit s.depth := by
  induction h with
  | stay => exact fun _ hm => absurd hm List.not_mem_nil
  | passed | failed | refused | calmed =>
    exact List.forall_mem_singleton.2 ⟨Int.le_refl _, Int.le_max_right ..⟩
  | @nested s later moments hroom hw ih =>
    have hdepth : later.up.depth = s.depth := (Walk.nested hroom hw).frame.2.2
    intro m hm
    rcases List.mem_append.1 hm with hm | hm
    · rcases List.mem_cons.1 hm with rfl | hm
      · simp only [Session.down]
        omega
      · have hbelow := ih m hm
        simp only [Session.down] at hbelow
        omega
    · rw [List.mem_singleton.1 hm, hdepth]
      omega
  | @trans s mid later moments more h _ ih ih' =>
    obtain ⟨-, hlimit, hdepth⟩ := h.frame
    intro m hm
    rcases List.mem_append.1 hm with hm | hm
    · exact ih m hm
    · have hlater := ih' m hm
      rwa [hlimit, hdepth] at hlater

theorem rises (h : Walk s moments later) : Rises s moments later := by
  induction h with
  | stay s => exact .nil s
  | @passed s => exact .single s.onward_next _
  | failed s message t => exact .single (s.onward_failed message t) _
  | @refused s => exact .single (.refl s) _
  | calmed s => exact .single s.onward_calmed _
  | @nested s later _ _ _ ih =>
    exact ((Rises.single s.onward_down _).append ih).append (.single later.onward_up _)
  | trans _ _ ih ih' => exact ih.append ih'

end Walk

end SqlScript.Grammar
