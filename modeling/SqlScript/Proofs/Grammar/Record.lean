import Mathlib.Data.List.Chain
import SqlScript.Grammar.Script

/-!
Laws of recording: which diagnostics are kept depends on their places alone, and recording in two
goes keeps the same ones unless the two meet at one place.
-/

namespace SqlScript.Grammar

theorem record_ne_nil (ds : List Diagnostic) (d : Diagnostic) : record ds d ≠ [] := by
  unfold record
  split
  · rename_i h
    intro hn
    rw [hn] at h
    cases h
  · simp

theorem recordAll_nil (ds : List Diagnostic) : recordAll ds [] = ds := rfl

theorem recordAll_cons (ds more : List Diagnostic) (d : Diagnostic) :
    recordAll ds (d :: more) = recordAll (record ds d) more := rfl

theorem recordAll_append (ds a b : List Diagnostic) :
    recordAll ds (a ++ b) = recordAll (recordAll ds a) b := by
  simp [recordAll]

theorem recordAll_eq_nil_iff {ds more : List Diagnostic} :
    recordAll ds more = [] ↔ ds = [] ∧ more = [] := by
  induction more generalizing ds with
  | nil => simp [recordAll_nil]
  | cons d more ih =>
    rw [recordAll_cons, ih]
    simp [record_ne_nil]

/-- Only the last diagnostic that was recorded counts. -/
theorem record_append {ds es : List Diagnostic} (h : es ≠ []) (d : Diagnostic) :
    record (ds ++ es) d = ds ++ record es d := by
  unfold record
  rw [List.getLast?_append_of_ne_nil ds h]
  split
  · rfl
  · rw [List.append_assoc]

theorem recordAll_append_left {ds es : List Diagnostic} (h : es ≠ []) (more : List Diagnostic) :
    recordAll (ds ++ es) more = ds ++ recordAll es more := by
  induction more generalizing es with
  | nil => rfl
  | cons d more ih => rw [recordAll_cons, recordAll_cons, record_append h, ih (record_ne_nil es d)]

/-- The first diagnostic is kept. -/
theorem recordAll_nil_cons (d : Diagnostic) (more : List Diagnostic) :
    recordAll [] (d :: more) = recordAll [d] more := rfl

theorem head?_recordAll_nil (more : List Diagnostic) : (recordAll [] more).head? = more.head? := by
  have hkeep (more es : List Diagnostic) (d : Diagnostic) :
      (recordAll (d :: es) more).head? = some d := by
    induction more generalizing es with
    | nil => rfl
    | cons e more ih =>
      rw [recordAll_cons, record]
      split
      · exact ih es
      · exact ih (es ++ [e])
  cases more with
  | nil => rfl
  | cons d more => exact hkeep more [] d

/-- Diagnostics recorded after others are the same as on their own, unless the first of them stands
where the last of the others does. -/
theorem recordAll_eq_append {ds more : List Diagnostic}
    (h : ∀ d ∈ ds.getLast?, ∀ e ∈ more.head?, d.place ≠ e.place) :
    recordAll ds more = ds ++ recordAll [] more := by
  cases more with
  | nil => rw [recordAll_nil, recordAll_nil, List.append_nil]
  | cons e more =>
    have hnew : ds.getLast?.map (·.place) ≠ some e.place := by
      intro he
      obtain ⟨d, hd, hplace⟩ := Option.map_eq_some_iff.1 he
      exact h d hd e rfl hplace
    rw [recordAll_cons, record, if_neg hnew, recordAll_append_left (by simp), recordAll_nil_cons]

/-- Where no two neighbours stand at one place, all are kept. -/
theorem recordAll_of_isChain {ds : List Diagnostic}
    (h : ds.IsChain fun d e => d.place ≠ e.place) : recordAll [] ds = ds := by
  induction ds with
  | nil => rfl
  | cons d ds ih =>
    obtain ⟨hd, hds⟩ := List.isChain_cons.1 h
    have hnext : ∀ d' ∈ [d].getLast?, ∀ e ∈ ds.head?, d'.place ≠ e.place := by simpa using hd
    rw [recordAll_nil_cons, recordAll_eq_append hnext, ih hds, List.singleton_append]

theorem mem_record {ds : List Diagnostic} {d e : Diagnostic} (h : e ∈ record ds d) :
    e ∈ ds ∨ e = d := by
  unfold record at h
  split at h
  · exact .inl h
  · simpa using h

theorem mem_recordAll {ds more : List Diagnostic} {e : Diagnostic} (h : e ∈ recordAll ds more) :
    e ∈ ds ∨ e ∈ more := by
  induction more generalizing ds with
  | nil => exact .inl h
  | cons d more ih =>
    rw [recordAll_cons] at h
    rcases ih h with h | h
    · rcases mem_record h with h | rfl
      · exact .inl h
      · exact .inr (List.mem_cons_self ..)
    · exact .inr (List.mem_cons_of_mem _ h)

theorem prefix_record (ds : List Diagnostic) (d : Diagnostic) : ds <+: record ds d := by
  unfold record
  split
  · exact List.prefix_rfl
  · exact List.prefix_append ds [d]

theorem prefix_recordAll (ds more : List Diagnostic) : ds <+: recordAll ds more := by
  induction more generalizing ds with
  | nil => exact List.prefix_rfl
  | cons d more ih => exact (prefix_record ds d).trans (ih _)

/-! ## Changed diagnostics -/

/-- Recording compares places only, so it commutes with a change that tells them apart and makes none
differ that are one. -/
theorem recordAll_map {δ : Diagnostic → Diagnostic} {ds more : List Diagnostic}
    (h : ∀ d ∈ ds ++ more, ∀ e ∈ ds ++ more, (δ d).place = (δ e).place ↔ d.place = e.place) :
    (recordAll ds more).map δ = recordAll (ds.map δ) (more.map δ) := by
  induction more generalizing ds with
  | nil => rfl
  | cons d more ih =>
    have hrecord : (record ds d).map δ = record (ds.map δ) (δ d) := by
      have hlast : (ds.map δ).getLast?.map (·.place) = some (δ d).place ↔
          ds.getLast?.map (·.place) = some d.place := by
        rw [List.getLast?_map, Option.map_map, Option.map_eq_some_iff, Option.map_eq_some_iff]
        refine exists_congr fun e => and_congr_right fun he => ?_
        exact h e (List.mem_append_left _ (List.mem_of_getLast? he)) d (by simp)
      rw [record, record]
      by_cases hsame : ds.getLast?.map (·.place) = some d.place
      · rw [if_pos hsame, if_pos (hlast.2 hsame)]
      · rw [if_neg hsame, if_neg (mt hlast.1 hsame), List.map_append, List.map_singleton]
    have hkept : ∀ e ∈ record ds d ++ more, e ∈ ds ++ d :: more := by
      intro e he
      rcases List.mem_append.1 he with he | he
      · rcases mem_record he with he | rfl
        · exact List.mem_append_left _ he
        · simp
      · simp [he]
    rw [recordAll_cons, ih fun e he e' he' => h e (hkept e he) e' (hkept e' he'), hrecord,
      List.map_cons, recordAll_cons]

end SqlScript.Grammar
