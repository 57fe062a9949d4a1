import SqlScript.Compile
import SqlScript.Proofs.Check.Recast
import SqlScript.Proofs.Grammar.Uniform
import SqlScript.Proofs.Token.Folding

/-!
The case of the letters A to Z means nothing, wherever they stand. Texts that differ in it alone are
compiled alike: their tokens are of the same kinds and at the same positions, their trees of one
shape with the same types, and what is said of them is said at the same places. Only the spelling of
what is copied from the text differs.
-/

namespace SqlScript
open SqlScript.Text SqlScript.Grammar SqlScript.Check

section

variable {a b : String}

/-- Texts with one folding have tokens that no rule tells apart. -/
theorem scan_alike_of_fold_eq (h : fold a = fold b) :
    List.Forall₂ (Token.Alike (Tree.Label.recast id fold) (Tree.Label.recast id fold))
      (scan a) (scan b) := by
  have hscan : (scan a).map Token.folded = (scan b).map Token.folded := by
    rw [← scan_fold, h, scan_fold]
  have hlength : (scan a).length = (scan b).length := by
    simpa using congrArg List.length hscan
  refine List.forall₂_iff_get.2 ⟨hlength, fun i ha hb => ?_⟩
  have hta := List.get_mem (scan a) ⟨i, ha⟩
  have htb := List.get_mem (scan b) ⟨i, hb⟩
  have hfolded : ((scan a).get ⟨i, ha⟩).folded = ((scan b).get ⟨i, hb⟩).folded := by
    have hget := List.getElem_of_eq hscan (by simpa using ha)
    simpa using hget
  generalize (scan a).get ⟨i, ha⟩ = t at hta hfolded ⊢
  generalize (scan b).get ⟨i, hb⟩ = u at htb hfolded ⊢
  obtain ⟨hkind, hlexeme, hposition⟩ := Token.mk.inj hfolded
  have hplace : t.place = u.place := congrArg Position.place hposition
  refine ⟨hkind, fun _ => ?_, fun hsign => ?_, fun kind hk _ => ?_, fun kind text => ?_⟩
  · rw [← upper_fold, hlexeme, upper_fold]
  · rw [← fold_lexeme_of_sign hta hsign, hlexeme, fold_lexeme_of_sign htb (hkind ▸ hsign)]
  · simp [Tree.Label.recast, Tree.Label.plain, hk, hlexeme, hplace]
  · rw [hplace]

/-! ## Parses -/

theorem Grammar.Blame.Alike.folded_diagnostic_eq {blame blame' : Blame}
    (h : Blame.Alike (Tree.Label.recast id fold) (Tree.Label.recast id fold) blame blame') :
    blame.diagnostic.recast id fold = blame'.diagnostic.recast id fold := by
  have hleaf := h.token.leaf_eq .error (by decide) fun _ => rfl
  have hlexeme : fold blame.token.lexeme = fold blame'.token.lexeme :=
    congrArg Tree.Label.text hleaf
  have hplace : blame.token.place = blame'.token.place := congrArg Tree.Label.place hleaf
  have htoken : blame.token.folded = blame'.token.folded := by
    simp only [Token.folded, h.token.kind_eq, hlexeme, Position.place_injective hplace]
  have hdescribe : fold blame.token.describe = fold blame'.token.describe := by
    rw [← Token.fold_describe_folded, htoken, Token.fold_describe_folded]
  simp only [Blame.diagnostic, Diagnostic.found, Diagnostic.recast, h.complaint_eq, hplace,
    fold_append, hdescribe]

theorem recast_parse_eq (h : fold a = fold b) (limit : Int) :
    (parse (scan a) limit).tree.recast id fold = (parse (scan b) limit).tree.recast id fold :=
  parse_alike limit (scan_alike_of_fold_eq h) fun hnil => absurd hnil (scan_ne_nil a)

theorem recast_diagnostics_parse_eq (h : fold a = fold b) (limit : Int) :
    (parse (scan a) limit).diagnostics.map (Diagnostic.recast id fold) =
      (parse (scan b) limit).diagnostics.map (Diagnostic.recast id fold) := by
  have hplaces (source : String) : Separates (Diagnostic.recast id fold) (scan source) limit :=
    fun _ _ _ _ => Iff.rfl
  exact diagnostics_parse_alike (fun _ _ hb => hb.folded_diagnostic_eq) (hplaces a) (hplaces b)
    (scan_alike_of_fold_eq h) fun hnil => absurd hnil (scan_ne_nil a)

end

/-! ## Compilations -/

/-- The compilation with all that is copied from the text folded: lexemes, names, references and
messages. Kinds, positions and types stay as they are, and so does the shape of the tree. -/
def Compiled.folded (c : Compiled) : Compiled :=
  { c with
    tokens := c.tokens.map Token.folded
    tree := c.tree.recast id fold
    syntaxErrors := c.syntaxErrors.map (Diagnostic.recast id fold)
    catalog := c.catalog.respelled fold
    semanticErrors := c.semanticErrors.map (Diagnostic.recast id fold) }

theorem Compiled.folded_ofText {a b : String} (h : fold a = fold b) (limit : Int) :
    (ofText a limit).folded = (ofText b limit).folded := by
  have hsize : a.length = b.length := by rw [← length_fold, h, length_fold]
  have htokens : (scan a).map Token.folded = (scan b).map Token.folded := by
    rw [← scan_fold, h, scan_fold]
  have hanalysis : (analyze (parse (scan a) limit).tree).recast id fold =
      (analyze (parse (scan b) limit).tree).recast id fold := by
    rw [← analyze_recast caseBlind_fold, recast_parse_eq h, analyze_recast caseBlind_fold]
  obtain ⟨htree, hcatalog, hfound⟩ := Analysis.mk.inj hanalysis
  simp only [folded, ofText, hsize, htokens, htree, recast_diagnostics_parse_eq h, hcatalog, hfound]

/-- Two texts that differ in the case of the letters A to Z alone have, whatever the settings, the
same compilation up to that case. -/
theorem compile_case_blind {a b : String} (h : fold a = fold b)
    (settings : Except Settings.Fault Settings) :
    (compile (some a) settings).map Compiled.folded =
      (compile (some b) settings).map Compiled.folded := by
  have hblank : isBlank a = isBlank b := by rw [← isBlank_fold, h, isBlank_fold]
  rw [compile, compile, script?, script?, Option.filter_some, Option.filter_some, hblank]
  cases isBlank b with
  | true => rfl
  | false =>
    cases settings with
    | error fault => rfl
    | ok s => exact congrArg Except.ok (Compiled.folded_ofText h s.maxDepth)

/-- The two texts differ in every letter that has a case but the sigma, which is final in lower case
since a letter stands before it. The table is found under either name; a column is missing, a text
is compared with a number and the last statement breaks off, in both. -/
theorem compile_case_blind_final_sigma :
    let a := "CREATE TABLE TΣ (N INT); select n, M from tΣ where N = 'It''s'; SELECT /* End */"
    let b := "create table tΣ (n int); SELECT N, m FROM TΣ WHERE n = 'iT''S'; select /* eND */"
    let settings := Except.ok ⟨"INFO", 100, "svg", by decide⟩
    fold a = fold b ∧ a ≠ b ∧
      (compile (some a) settings).map Compiled.folded =
        (compile (some b) settings).map Compiled.folded ∧
      (parse (scan a) 100).diagnostics.length = 1 ∧
      (analyze (parse (scan a) 100).tree).diagnostics.length = 2 := by
  intro a b settings
  have h : fold a = fold b := by decide +kernel
  exact ⟨h, by decide, compile_case_blind h settings, by decide +kernel, by decide +kernel⟩

end SqlScript
