import SqlScript.Compile
import SqlScript.Proofs.Check.Recast
import SqlScript.Proofs.Grammar.Uniform
import SqlScript.Proofs.Token.LineEnds

/-!
Texts that differ in the style of their line ends are compiled alike. The only token that changes is
a string that the end of its line cuts off, and of that one nothing is said but that it is not
closed: neither the parser nor the checker looks into an error.
-/

namespace SqlScript
open SqlScript.Text SqlScript.Grammar SqlScript.Check

/-! ## Errors -/

/-- The label, if it marks a failure at an error, with what is said of that instead of its text. -/
def Tree.Label.blamed (l : Label) : Label :=
  if l.kind = .error then { l with text := (Token.fault ⟨.error, l.text, .start⟩).message } else l

theorem Tree.Label.blamed_of_ne {l : Label} (h : l.kind ≠ .error) : l.blamed = l := if_neg h

theorem Tree.Label.recasting_blamed : Recasting id id blamed where
  kind_eq l := by
    unfold blamed
    split <;> rfl
  place_eq l := by
    unfold blamed
    split <;> rfl
  condition_eq h := by rw [blamed_of_ne (by simp [h])]
  text_eq _ h := by rw [blamed_of_ne h, id]

namespace Token.Returned

variable {source : String} {t u : Token} (h : t.Returned source u)
include h

theorem place_eq : t.place = u.place := by
  rw [Token.place, Token.place, h.position_eq]

theorem lexeme_eq_of_ne (hk : t.kind ≠ .error) : t.lexeme = u.lexeme :=
  (h.lexeme_eq fun hcutOff => hk hcutOff.1).symm

/-- What a string gains at the end of its line does not close it. -/
theorem fault_eq : t.fault = u.fault := by
  by_cases hcutOff : t.CutOff source
  · obtain ⟨tail, htail⟩ := Token.fault_eq_unclosedString_iff.1 hcutOff.2.1
    have hlexeme : u.lexeme.toList = '\x27' :: (tail ++ ['\r']) := by
      rw [h.lexeme_of_cutOff hcutOff, String.toList_append, htail]
      rfl
    rw [hcutOff.2.1, Token.fault_eq_unclosedString_iff.2 ⟨_, hlexeme⟩]
  · rw [Token.fault, Token.fault, h.lexeme_eq hcutOff]

theorem alike : t.Alike Tree.Label.blamed Tree.Label.blamed u where
  kind_eq := h.kind_eq.symm
  upper_eq hk := by rw [h.lexeme_eq_of_ne hk]
  lexeme_eq hk := h.lexeme_eq_of_ne (by rcases hk with hk | hk <;> simp [hk])
  leaf_eq kind _ hkind := by
    by_cases hk : t.kind = .error
    · have hmessage : (Token.fault ⟨.error, t.lexeme, .start⟩).message =
          (Token.fault ⟨.error, u.lexeme, .start⟩).message :=
        congrArg Token.Fault.message h.fault_eq
      obtain rfl := hkind hk
      simp only [Tree.Label.blamed, Tree.Label.plain, if_true, hmessage, h.place_eq]
    · rw [h.lexeme_eq_of_ne hk, h.place_eq]
  node_eq kind text := by rw [h.place_eq]

end Token.Returned

namespace Grammar

theorem Blame.Alike.blamed_diagnostic_eq {b b' : Blame}
    (h : Blame.Alike Tree.Label.blamed Tree.Label.blamed b b') : b.diagnostic = b'.diagnostic := by
  have hplace : b.token.place = b'.token.place :=
    congrArg Tree.Label.place (h.token.node_eq .program "")
  have hdescribe : b.token.describe = b'.token.describe := by
    by_cases hk : b.token.kind = .error
    · have hleaf := h.token.leaf_eq .error (by decide) fun _ => rfl
      rw [Token.describe, Token.describe, ← h.token.kind_eq, hk]
      exact congrArg Tree.Label.text hleaf
    · have hleaf := h.token.leaf_eq .string (by decide) fun he => absurd he hk
      have hlexeme : b.token.lexeme = b'.token.lexeme := congrArg Tree.Label.text hleaf
      rw [Token.describe, Token.describe, h.token.kind_eq, Token.fault, Token.fault, hlexeme]
  rw [Blame.diagnostic, Blame.diagnostic, Diagnostic.found, Diagnostic.found, hplace, hdescribe,
    h.complaint_eq]

end Grammar

/-! ## Compilations -/

theorem isBlank_returnLines (source : String) : isBlank (returnLines source) = isBlank source := by
  have hchar (c : Char) :
      (if c = '\n' then ['\r', '\n'] else [c]).all isBlankChar = isBlankChar c := by
    split
    · rename_i hc
      subst hc
      rfl
    · exact Bool.and_true _
  rw [isBlank, isBlank, returnLines, String.toList_ofList, withReturns, List.all_flatMap]
  simp only [hchar]

/-- What is said of a text and what its tables are. -/
def Compiled.outcome (c : Compiled) : List Diagnostic × List Diagnostic × Catalog :=
  (c.syntaxErrors, c.semanticErrors, c.catalog)

section

variable (source : String) (limit : Int)

theorem scan_alike_returnLines :
    List.Forall₂ (Token.Alike Tree.Label.blamed Tree.Label.blamed) (scan source)
      (scan (returnLines source)) :=
  (scan_returnLines source).imp fun _ _ => Token.Returned.alike

theorem blamed_parse_returnLines :
    (parse (scan source) limit).tree.map Tree.Label.blamed =
      (parse (scan (returnLines source)) limit).tree.map Tree.Label.blamed :=
  parse_alike limit (scan_alike_returnLines source) fun hnil => absurd hnil (scan_ne_nil source)

theorem diagnostics_parse_returnLines :
    (parse (scan source) limit).diagnostics =
      (parse (scan (returnLines source)) limit).diagnostics := by
  have hseparates (tokens : List Token) : Separates id tokens limit := fun _ _ _ _ => Iff.rfl
  have hdiagnostics := diagnostics_parse_alike (fun _ _ hb => hb.blamed_diagnostic_eq)
    (hseparates _) (hseparates _) (scan_alike_returnLines source)
    fun hnil => absurd hnil (scan_ne_nil source)
  rwa [List.map_id, List.map_id] at hdiagnostics

theorem Compiled.outcome_returnLines :
    (ofText (returnLines source) limit).outcome = (ofText source limit).outcome := by
  have hanalysis (t : Tree) := findings_map Tree.Label.recasting_blamed t
  obtain ⟨hcatalog, hfindings⟩ := hanalysis (parse (scan source) limit).tree
  obtain ⟨hcatalog', hfindings'⟩ := hanalysis (parse (scan (returnLines source)) limit).tree
  simp only [outcome, ofText, analyze, diagnostics_parse_returnLines source, ← hcatalog,
    ← hcatalog', ← hfindings, ← hfindings', blamed_parse_returnLines source]

end

/-- A carriage return in front of every line feed changes the tokens in nothing but the lexemes of
strings that a line feed cuts off, each of which takes the one that stands there; and, whatever the
settings, neither what is said of the text nor its catalog changes. -/
theorem compile_returnLines (source : String) (settings : Except Settings.Fault Settings) :
    List.Forall₂ (Token.Returned source) (scan source) (scan (returnLines source)) ∧
      (compile (some (returnLines source)) settings).map Compiled.outcome =
        (compile (some source) settings).map Compiled.outcome := by
  refine ⟨scan_returnLines source, ?_⟩
  rw [compile, compile, script?, script?, Option.filter_some, Option.filter_some,
    isBlank_returnLines]
  cases isBlank source with
  | true => rfl
  | false =>
    cases settings with
    | error fault => rfl
    | ok s => exact congrArg Except.ok (Compiled.outcome_returnLines source s.maxDepth)

end SqlScript
