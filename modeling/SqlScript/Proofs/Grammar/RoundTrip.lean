import SqlScript.Proofs.Grammar.Printing
import SqlScript.Proofs.Grammar.Unended
import SqlScript.Proofs.Grammar.Uniform
import SqlScript.Proofs.Token.Rescan

/-!
Printing undoes parsing: the words that are printed for the tree of a script are scanned to the
tokens of the same script with the fewest parentheses, and these are read as the same tree.
-/

namespace SqlScript

theorem Token.SameText.alike {t u : Token} (h : t.SameText u) : t.Alike .unplaced .unplaced u :=
  .of_same h.kind_eq h.lexeme_eq fun _ _ => rfl

namespace Grammar
open SqlScript.Phrase SqlScript.Tree

theorem standalone_of_reuses {source : String} {us : List Token}
    (h : Reuses (lexemes source) us) : ∀ t ∈ us, Standalone t.kind t.lexeme.toList := by
  intro t ht
  rcases h t ht with ⟨hmem, hk⟩ | rfl | rfl
  · obtain ⟨c, rest, hfirst⟩ := exists_first_of_mem_lexemes hmem
    exact standalone_of_token? hfirst hk
  · exact @standalone_of_token? '(' [] _ _ rfl (by decide)
  · exact @standalone_of_token? ')' [] _ _ rfl (by decide)

theorem isEnd_of_reuses {source : String} {us : List Token} (h : Reuses (lexemes source) us) :
    ∀ t ∈ us, isEnd t = false := by
  intro t ht
  rcases h t ht with ⟨hmem, -⟩ | rfl | rfl
  · exact isEnd_of_mem_lexemes hmem
  · rfl
  · rfl

section

variable {source : String} {limit : Int} {script : List Sentence}
  (h : Reads (scan source) limit script)

include h

theorem lexemes_reuses : Reuses (lexemes source) (Sentence.leastTokens script) := by
  rw [← before_scan, h.tokens_eq]
  exact Sentence.leastTokens_reuses script

theorem reads_least :
    Reads (withEndMark (Sentence.leastTokens script)) limit (script.map Sentence.least) where
  tokens_eq := before_withEndMark (isEnd_of_reuses (lexemes_reuses h))
  depth_le := by
    rw [List.forall_mem_map]
    intro s hs
    exact (Int.ofNat_le.2 s.depth_least).trans (h.depth_le s hs)

theorem words_parse :
    (parse (scan source) limit).tree.words = (Sentence.leastTokens script).map Token.lexeme := by
  have hwords : (parse (scan source) limit).tree.words =
      (parse (scan source) limit).tree.children.flatMap words :=
    words_plain_of_groups rfl (fun _ _ => rfl) _
  rw [hwords, (parse_of_reads h).1, Sentence.words_trees]

/-- The printed text is scanned to the tokens of the script with the fewest parentheses. -/
theorem scan_printed :
    List.Forall₂ (Token.Alike .unplaced .unplaced) (withEndMark (Sentence.leastTokens script))
      (scan (parse (scan source) limit).tree.printed) := by
  have hagain := lexemes_intercalate (standalone_of_reuses (lexemes_reuses h))
  have halike := hagain.imp fun _ _ => Token.SameText.alike
  rw [printed, words_parse h]
  exact List.rel_append halike (.cons (endMark_alike halike fun _ => .refl _) .nil)

theorem unplaced_least :
    (parse (withEndMark (Sentence.leastTokens script)) limit).tree.unplaced =
      (parse (scan source) limit).tree.unplaced := by
  have hprogram (tokens : List Token) : (parse tokens limit).tree.unplaced =
      Tree.plain .program "" ⟨none, none⟩ ((parse tokens limit).tree.children.map unplaced) :=
    unplaced_plain ..
  rw [hprogram, hprogram, (parse_of_reads (reads_least h)).1, (parse_of_reads h).1]
  simp only [List.map_map, Function.comp_def, Sentence.unplaced_tree]

end

/-- What is printed for the tree of a text without mistakes is read as the same tree. -/
theorem parse_printed {source : String} {limit : Int}
    (h : (parse (scan source) limit).diagnostics = []) :
    (parse (scan (parse (scan source) limit).tree.printed) limit).diagnostics = [] ∧
      (parse (scan (parse (scan source) limit).tree.printed) limit).tree.unplaced =
        (parse (scan source) limit).tree.unplaced := by
  obtain ⟨script, hscript⟩ := exists_reads h
  have hscan := scan_printed hscript
  have hwhole := (parse_of_reads (reads_least hscript)).2
  have htree := parse_tree_alike limit hscan
  exact ⟨parse_whole_alike limit hscan hwhole, htree.symm.trans (unplaced_least hscript)⟩

/-- Conditions stay in parentheses as values, as operands of comparisons and to the right of an OR;
all other parentheses are gone. -/
theorem parse_printed_conditions :
    let source := "INSERT INTO t VALUES ((a), (b OR (c)));" ++
      "DELETE FROM t WHERE NOT ((a AND ((b) OR c)) = (x)) OR (y OR (z AND 'q'));"
    let text := "INSERT INTO t VALUES ( a , ( b OR c ) ) ; " ++
      "DELETE FROM t WHERE NOT ( a AND ( b OR c ) ) = x OR ( y OR z AND 'q' ) ;"
    (parse (scan source) 5).diagnostics = [] ∧ (parse (scan source) 5).tree.printed = text ∧
      (parse (scan text) 5).diagnostics = [] ∧
      (parse (scan text) 5).tree.unplaced = (parse (scan source) 5).tree.unplaced := by
  intro source text
  have hwhole : (parse (scan source) 5).diagnostics = [] := by decide +kernel
  have hprinted : (parse (scan source) 5).tree.printed = text := by decide +kernel
  have hagain := parse_printed hwhole
  rw [hprinted] at hagain
  exact ⟨hwhole, hprinted, hagain⟩

end Grammar

end SqlScript
