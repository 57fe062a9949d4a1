import SqlScript.Proofs.Check.Recast
import SqlScript.Proofs.Grammar.Uniform
import SqlScript.Proofs.Token.Order
import SqlScript.Proofs.Token.Rescan
import SqlScript.Proofs.Tree.Printing

/-!
Blanks, line breaks and comments between the tokens of a text mean nothing: texts with the same
tokens get trees that are equal but for places, equal catalogs, and the same messages at
corresponding tokens. A place stands for the number of the token there; moving every place to that
number makes the two runs equal.
-/

namespace SqlScript
open SqlScript.Grammar SqlScript.Check

/-! ## Places of a parse -/

namespace Grammar

theorem moved_parse {tokens : List Token} {ρ : Place → Place}
    (h : ∀ t ∈ tokens, ρ t.place = t.place) (hne : tokens ≠ []) (limit : Int) :
    (parse tokens limit).tree.moved ρ = (parse tokens limit).tree := by
  refine map_parse limit (fun t ht => ?_) hne
  have hlabel (kind : Tree.Kind) (text : String) :
      (Tree.Label.plain kind text t.place).moved ρ = .plain kind text t.place := by
    rw [Tree.Label.moved, Tree.Label.plain, h t ht]
  exact .of_same rfl rfl hlabel

end Grammar

namespace Check

theorem exists_token_of_finding {tokens : List Token} {limit : Int} {d : Diagnostic}
    (hne : tokens ≠ []) (h : d ∈ (analyze (parse tokens limit).tree).diagnostics) :
    ∃ t ∈ tokens, d.place = t.place := by
  obtain ⟨first, hfirst⟩ := List.exists_mem_of_ne_nil tokens hne
  -- all other places are moved to that of some token, which changes nothing
  let ρ (p : Place) : Place := if p ∈ tokens.map Token.place then p else first.place
  have hρ (p : Place) : ρ p ∈ tokens.map Token.place := by
    change (if p ∈ tokens.map Token.place then _ else _) ∈ _
    split
    · assumption
    · exact List.mem_map_of_mem hfirst
  have hkeep : ∀ t ∈ tokens, ρ t.place = t.place := fun t ht =>
    if_pos (List.mem_map_of_mem ht)
  rw [← moved_parse hkeep hne, analyze_moved] at h
  obtain ⟨e, -, rfl⟩ := List.mem_map.1 h
  obtain ⟨t, ht, hplace⟩ := List.mem_map.1 (hρ e.place)
  exact ⟨t, ht, hplace.symm⟩

end Check

/-! ## Numbers of tokens -/

/-- Moves each place of a text to the number of the token that stands there. -/
def numbered (source : String) (p : Place) : Place :=
  ⟨some (((lexemes source).map Token.place).idxOf p), none⟩

theorem idxOf_place {source : String} {i : Nat} (h : i < (lexemes source).length) :
    ((lexemes source).map Token.place).idxOf (lexemes source)[i].place = i := by
  have hi : i < ((lexemes source).map Token.place).length := by simpa using h
  have hidx := (nodup_places source).idxOf_getElem i hi
  rwa [List.getElem_map] at hidx

/-- The end mark has the number of the last token, every other token its own. -/
theorem numbered_place {source : String} {i : Nat} (h : i < (scan source).length) :
    numbered source (scan source)[i].place =
      ⟨some (min i ((lexemes source).length - 1) : Nat), none⟩ := by
  have hlength : (scan source).length = (lexemes source).length + 1 := by simp [scan, withEndMark]
  have hidx : ((lexemes source).map Token.place).idxOf (scan source)[i].place =
      min i ((lexemes source).length - 1) := by
    by_cases hi : i < (lexemes source).length
    · have hget : (scan source)[i] = (lexemes source)[i] := List.getElem_append_left hi
      rw [hget, idxOf_place]
      omega
    · have hget : (scan source)[i] = endMark (lexemes source) := by
        simp [scan, withEndMark, List.getElem_append_right (Nat.not_lt.1 hi)]
      by_cases hnil : lexemes source = []
      · simp [hnil]
      · have hpos := List.length_pos_iff.2 hnil
        rw [hget, place_endMark hnil, List.getLast_eq_getElem, idxOf_place]
        omega
  rw [numbered, hidx]

section

variable {a b : String}

theorem numbered_injective {t u : Token} (ht : t ∈ scan a) (hu : u ∈ scan a)
    (h : numbered a t.place = numbered a u.place) : t.place = u.place := by
  by_cases hnil : lexemes a = []
  · rw [scan, hnil] at ht hu
    rw [List.mem_singleton.1 ht, List.mem_singleton.1 hu]
  · have hmem {v : Token} (hv : v ∈ scan a) : v.place ∈ (lexemes a).map Token.place := by
      rcases List.mem_append.1 hv with hv | hv
      · exact List.mem_map_of_mem hv
      · obtain ⟨w, hw, hplace⟩ := exists_place_endMark hnil
        rw [List.mem_singleton.1 hv, hplace]
        exact List.mem_map_of_mem hw
    simp only [numbered, Place.mk.injEq, Option.some.injEq, Int.natCast_inj, and_true] at h
    exact (List.idxOf_inj (hmem ht)).1 h

theorem scan_alike (h : List.Forall₂ Token.SameText (scan a) (scan b)) :
    List.Forall₂ (Token.Alike (Tree.Label.moved (numbered a)) (Tree.Label.moved (numbered b)))
      (scan a) (scan b) := by
  obtain ⟨hlength, hsame⟩ := List.forall₂_iff_get.1 h
  have hlexemes : (lexemes a).length = (lexemes b).length := by
    simpa [scan, withEndMark] using hlength
  refine List.forall₂_iff_get.2 ⟨hlength, fun i ha hb => ?_⟩
  obtain ⟨hkind, hlexeme⟩ := hsame i ha hb
  have hplace : numbered a ((scan a).get ⟨i, ha⟩).place =
      numbered b ((scan b).get ⟨i, hb⟩).place := by
    simp only [List.get_eq_getElem, numbered_place, hlexemes]
  have hlabel (kind : Tree.Kind) (text : String) :
      (Tree.Label.plain kind text ((scan a).get ⟨i, ha⟩).place).moved (numbered a) =
        (Tree.Label.plain kind text ((scan b).get ⟨i, hb⟩).place).moved (numbered b) := by
    simp only [Tree.Label.moved, Tree.Label.plain, hplace]
  exact .of_same hkind hlexeme hlabel

/-! ## Corresponding diagnostics -/

/-- The diagnostics say the same, at tokens with one number. -/
structure Diagnostic.Corresponds (ts us : List Token) (d e : Diagnostic) : Prop where
  message_eq : d.message = e.message
  token : ∃ p ∈ ts.zip us, d.place = p.1.place ∧ e.place = p.2.place

theorem exists_mem_zip {α β : Type} {R : α → β → Prop} {as : List α} {bs : List β}
    (h : List.Forall₂ R as bs) {x : α} (hx : x ∈ as) : ∃ y, (x, y) ∈ as.zip bs ∧ R x y := by
  induction h with
  | nil => cases hx
  | cons hxy _ ih =>
    rcases List.mem_cons.1 hx with rfl | hx
    · exact ⟨_, List.mem_cons_self .., hxy⟩
    · obtain ⟨y, hy, hxy⟩ := ih hx
      exact ⟨y, List.mem_cons_of_mem _ hy, hxy⟩

theorem corresponds_of_moved (h : List.Forall₂ Token.SameText (scan a) (scan b))
    {ds es : List Diagnostic} (hds : ∀ d ∈ ds, ∃ t ∈ scan a, d.place = t.place)
    (hes : ∀ e ∈ es, ∃ u ∈ scan b, e.place = u.place)
    (heq : ds.map (Diagnostic.moved (numbered a)) = es.map (Diagnostic.moved (numbered b))) :
    List.Forall₂ (Diagnostic.Corresponds (scan a) (scan b)) ds es := by
  induction ds generalizing es with
  | nil =>
    rw [List.map_nil, eq_comm, List.map_eq_nil_iff] at heq
    rw [heq]
    exact .nil
  | cons d ds ih =>
    cases es with
    | nil => cases heq
    | cons e es =>
      obtain ⟨hd, hmore⟩ := List.cons_eq_cons.1 heq
      rw [List.forall_mem_cons] at hds hes
      have hmessage := congrArg Diagnostic.message hd
      refine .cons ⟨hmessage, ?_⟩ (ih hds.2 hes.2 hmore)
      obtain ⟨t, ht, hdt⟩ := hds.1
      obtain ⟨v, hv, hev⟩ := hes.1
      obtain ⟨u, htu, halike⟩ := exists_mem_zip (scan_alike h) ht
      have hnumber : numbered b v.place = numbered b u.place := by
        calc numbered b v.place = numbered b e.place := by rw [hev]
          _ = numbered a d.place := (congrArg Diagnostic.place hd).symm
          _ = numbered a t.place := by rw [hdt]
          _ = numbered b u.place := congrArg Tree.Label.place (halike.node_eq .error "")
      refine ⟨(t, u), htu, hdt, ?_⟩
      rw [hev, numbered_injective hv (List.of_mem_zip htu).2 hnumber]

namespace Grammar

theorem Blame.Alike.diagnostic_eq {ρ ρ' : Place → Place} {blame blame' : Blame}
    (h : Blame.Alike (Tree.Label.moved ρ) (Tree.Label.moved ρ') blame blame') :
    blame.diagnostic.moved ρ = blame'.diagnostic.moved ρ' := by
  have hleaf := h.token.leaf_eq .error (by decide) fun _ => rfl
  have hlexeme : blame.token.lexeme = blame'.token.lexeme := congrArg Tree.Label.text hleaf
  have hplace : ρ blame.token.place = ρ' blame'.token.place := congrArg Tree.Label.place hleaf
  have hdescribe : blame.token.describe = blame'.token.describe := by
    rw [Token.describe, Token.describe, h.token.kind_eq, hlexeme, Token.fault, Token.fault, hlexeme]
  simp only [Blame.diagnostic, Diagnostic.found, Diagnostic.moved, h.complaint_eq, hdescribe,
    hplace]

end Grammar

/-! ## Texts with the same tokens -/

theorem moved_parse_eq (h : List.Forall₂ Token.SameText (scan a) (scan b)) (limit : Int) :
    (parse (scan a) limit).tree.moved (numbered a) =
      (parse (scan b) limit).tree.moved (numbered b) :=
  parse_alike limit (scan_alike h) fun hnil => absurd hnil (scan_ne_nil a)

theorem separates_moved (source : String) (limit : Int) :
    Separates (Diagnostic.moved (numbered source)) (scan source) limit := by
  intro d hd e he
  obtain ⟨-, t, ht, hdt⟩ := exists_token_of_failure hd
  obtain ⟨-, u, hu, heu⟩ := exists_token_of_failure he
  constructor
  · intro hnumber
    rw [hdt, heu]
    exact numbered_injective ht hu (hdt ▸ heu ▸ hnumber)
  · exact congrArg (numbered source)

theorem moved_diagnostics_parse_eq (h : List.Forall₂ Token.SameText (scan a) (scan b))
    (limit : Int) :
    (parse (scan a) limit).diagnostics.map (Diagnostic.moved (numbered a)) =
      (parse (scan b) limit).diagnostics.map (Diagnostic.moved (numbered b)) :=
  diagnostics_parse_alike (fun _ _ hb => hb.diagnostic_eq) (separates_moved a limit)
    (separates_moved b limit) (scan_alike h) fun hnil => absurd hnil (scan_ne_nil a)

theorem unplaced_eq_of_moved_eq {ρ ρ' : Place → Place} {t u : Tree}
    (h : t.moved ρ = u.moved ρ') : t.unplaced = u.unplaced := by
  have hunplaced (ρ : Place → Place) (t : Tree) : (t.moved ρ).unplaced = t.unplaced :=
    Tree.map_map _ _ t
  rw [← hunplaced ρ t, h, hunplaced]

end

/-- Texts with the same tokens, whatever stands between these, get trees that are equal but for
places, with and without marks, equal catalogs, and diagnostics that say the same at corresponding
tokens, from the parser as from the checker. -/
theorem analyze_relaid {a b : String} (h : List.Forall₂ Token.SameText (scan a) (scan b))
    (limit : Int) :
    let p := parse (scan a) limit
    let q := parse (scan b) limit
    p.tree.unplaced = q.tree.unplaced ∧
      (analyze p.tree).tree.unplaced = (analyze q.tree).tree.unplaced ∧
      (analyze p.tree).catalog = (analyze q.tree).catalog ∧
      List.Forall₂ (Diagnostic.Corresponds (scan a) (scan b)) p.diagnostics q.diagnostics ∧
      List.Forall₂ (Diagnostic.Corresponds (scan a) (scan b)) (analyze p.tree).diagnostics
        (analyze q.tree).diagnostics := by
  intro p q
  have htree : p.tree.moved (numbered a) = q.tree.moved (numbered b) := moved_parse_eq h limit
  have hanalysis := congrArg analyze htree
  rw [analyze_moved, analyze_moved] at hanalysis
  injection hanalysis with hmarked hcatalog hfound
  refine ⟨unplaced_eq_of_moved_eq htree, unplaced_eq_of_moved_eq hmarked, hcatalog, ?_, ?_⟩
  · exact corresponds_of_moved h (fun _ hd => (exists_token_of_diagnostic hd).2)
      (fun _ he => (exists_token_of_diagnostic he).2) (moved_diagnostics_parse_eq h limit)
  · exact corresponds_of_moved h (fun _ hd => exists_token_of_finding (scan_ne_nil a) hd)
      (fun _ he => exists_token_of_finding (scan_ne_nil b) he) hfound

/-- The second text has comments and line breaks that the first has not. Of the two statements that
break off at the end only the first is reported, in both. -/
theorem analyze_relaid_comments :
    let a := "CREATE TABLE t (n INT); SELECT m FROM t WHERE n = 'x'; SELECT n FROM SELECT"
    let b := "CREATE/**/TABLE t(n INT)\n;SELECT m\nFROM t WHERE n='x';SELECT n /* ; */ FROM\nSELECT"
    List.Forall₂ Token.SameText (scan a) (scan b) ∧
      (parse (scan a) 2).tree ≠ (parse (scan b) 2).tree ∧
      (parse (scan a) 2).tree.unplaced = (parse (scan b) 2).tree.unplaced ∧
      (parse (scan a) 2).diagnostics.length = 1 ∧ (parse (scan b) 2).diagnostics.length = 1 ∧
      (analyze (parse (scan a) 2).tree).diagnostics.length = 2 ∧
      (analyze (parse (scan b) 2).tree).diagnostics.length = 2 := by
  intro a b
  have h : List.Forall₂ Token.SameText (scan a) (scan b) := by decide +kernel
  obtain ⟨htree, -, -, hsyntax, hfound⟩ := analyze_relaid h 2
  have hone : (parse (scan a) 2).diagnostics.length = 1 := by decide +kernel
  have htwo : (analyze (parse (scan a) 2).tree).diagnostics.length = 2 := by decide +kernel
  exact ⟨h, by decide +kernel, htree, hone, hsyntax.length_eq ▸ hone, htwo,
    hfound.length_eq ▸ htwo⟩

end SqlScript
