import SqlScript.Compile
import SqlScript.Proofs.Check.Annotation
import SqlScript.Proofs.Check.Failures
import SqlScript.Proofs.Grammar.Texts
import SqlScript.Proofs.Report.Source
import SqlScript.Proofs.Token.Classes

/-!
Which labels of a diagram stay in their quotes. No lexeme but that of an error ends in a backslash,
and annotations close a label; so only the mark of a failure can take what stands behind its label
with it, and it does if its text ends in an odd run of backslashes.
-/

namespace SqlScript
open SqlScript.Tree

/-! ## How texts end -/

theorem Lexeme.getLast?_ne {kind : Token.Kind} {text after : List Char}
    (h : Lexeme kind text after) : text.getLast? ≠ some '\\' := by
  have hdigit : isDigit '\\' = false := by decide
  have hword : isWordChar '\\' = false := by decide +kernel
  intro hlast
  have hmem := List.mem_of_getLast? hlast
  cases h with
  | keyword hchars | identifier hchars =>
    rw [hchars.chars _ hmem] at hword
    cases hword
  | integer _ hdigits =>
    rw [hdigits _ hmem] at hdigit
    cases hdigit
  | decimal _ hdigits hfraction =>
    rcases List.mem_append.1 hmem with hmem | hmem
    · rw [hdigits _ hmem] at hdigit
      cases hdigit
    · rcases List.mem_cons.1 hmem with hpoint | hmem
      · cases hpoint
      · rw [hfraction _ hmem] at hdigit
        cases hdigit
  | string =>
    rw [List.getLast?_concat] at hlast
    cases hlast
  | @pair c d _ hpair =>
    have hnone : ∀ op ∈ operators, '\\' ∉ op := by decide
    exact hnone _ hpair hmem
  | @single c _ hsign =>
    have hnone : ∀ op ∈ operators, '\\' ∉ op := by decide
    exact hnone _ hsign hmem
  | @delimiter c _ hmark =>
    have hnone : '\\' ∉ delimiters := by decide
    rw [List.mem_singleton.1 hmem] at hnone
    exact hnone hmark

theorem getLast?_lexeme {source : String} {t : Token} (ht : t ∈ scan source)
    (hkind : t.kind ≠ .error) : t.lexeme.toList.getLast? ≠ some '\\' := by
  rcases List.mem_append.1 ht with ht | ht
  · obtain ⟨c, rest, hfirst⟩ := exists_first_of_mem_lexemes ht
    obtain ⟨after, -, hclassed⟩ := Piece.first_classed hfirst
    rw [Classed, if_neg hkind] at hclassed
    exact hclassed.getLast?_ne
  · have hempty : "".toList.getLast? ≠ some '\\' := by decide
    rw [List.mem_singleton.1 ht]
    exact hempty

namespace Diagram

/-! ## How labels end -/

theorem oddAfter_append (odd : Bool) (cs ds : List Char) :
    oddAfter odd (cs ++ ds) = oddAfter (oddAfter odd cs) ds := List.foldl_append

theorem oddAfter_name (kind : Kind) : oddAfter false kind.name.toList = false := by
  cases kind <;> decide

theorem oddAfter_caption (l : Label) :
    oddAfter false l.caption.toList = oddAfter false l.text.toList := by
  rw [Label.caption]
  split
  · rename_i htext
    rw [htext, oddAfter_name]
    rfl
  · have hcolon : oddAfter false ": ".toList = false := by decide
    rw [String.toList_append, String.toList_append, oddAfter_append, oddAfter_append, oddAfter_name,
      hcolon]

/-- The bracket behind annotations closes a label; without it the text of the node is the end. -/
theorem oddAfter_nodeLabel (l : Label) :
    oddAfter false (nodeLabel l).toList =
      (decide (l.annotations = "") && oddAfter false l.text.toList) := by
  rw [nodeLabel]
  split
  · rename_i h
    rw [oddAfter_caption, decide_eq_true h, Bool.true_and]
  · rename_i h
    have hbracket (odd : Bool) : oddAfter odd "]".toList = false := rfl
    rw [String.toList_append, oddAfter_append, hbracket, decide_eq_false h, Bool.false_and]

theorem annotations_of_silent {l : Label} (h : l.Silent) : l.annotations = "" := by
  rw [Label.annotations, h.1, h.2]
  rfl

/-! ## Marks of failures -/

/-- The node marks a failure, and its text ends in an odd run of backslashes. -/
def EndsOpen (u : Tree) : Prop :=
  u.kind = .error ∧ Odd (u.text.toList.reverse.takeWhile (· = '\\')).length

instance (u : Tree) : Decidable (EndsOpen u) := inferInstanceAs (Decidable (_ ∧ _))

def OpenAtMarks (t : Tree) : Prop :=
  ∀ u ∈ t.walk, oddAfter false (nodeLabel u.label).toList = true ↔ EndsOpen u

theorem getLast?_conditionText : ∀ text ∈ Phrase.conditionTexts,
    text.toList.getLast? ≠ some '\\' := by
  decide

theorem oddAfter_text {source : String} {limit : Int} {u : Tree}
    (hu : u ∈ (Grammar.parse (scan source) limit).tree.walk) (hkind : u.kind ≠ .error) :
    oddAfter false u.text.toList = false := by
  rcases Grammar.text_of_ne_error hu hkind with htext | htext | ⟨t, ht, hne, htext⟩
  · rw [htext]
    rfl
  · exact oddAfter_of_getLast? (getLast?_conditionText _ htext)
  · rw [htext]
    exact oddAfter_of_getLast? (getLast?_lexeme ht hne)

theorem openAtMarks_ofText (source : String) (limit : Int) :
    OpenAtMarks (Compiled.ofText source limit).tree := by
  intro u hu
  have htree : (Compiled.ofText source limit).tree =
      (Check.analyze (Grammar.parse (scan source) limit).tree).tree := rfl
  rw [htree] at hu
  rw [oddAfter_nodeLabel, EndsOpen, ← oddAfter_iff]
  by_cases hkind : u.kind = .error
  · have hsilent := annotations_of_silent (Check.silent_of_error hu hkind)
    simp [hkind, hsilent, Tree.text]
  · have hmem := List.mem_map_of_mem (f := Tree.map Check.bare) hu
    rw [← walk_map, Check.map_bare_analyze (scan_ne_nil source)] at hmem
    have hbare : (u.map Check.bare).kind = u.kind := kind_map (f := Check.bare) (fun _ => rfl) u
    have htext : (u.map Check.bare).text = u.label.text := by
      rw [Tree.text, label_map]
      rfl
    have hclosed := oddAfter_text hmem (hbare ▸ hkind)
    rw [htext] at hclosed
    simp [hkind, hclosed]

theorem openAtMarks_compile (source : Option String) (settings : Settings) :
    ∃ c, compile source (.ok settings) = .ok c ∧ OpenAtMarks c.tree := by
  rw [compile]
  cases script? source with
  | none =>
    refine ⟨.nothing, rfl, fun u hu => ?_⟩
    have hclosed : oddAfter false (nodeLabel Compiled.nothing.tree.label).toList = false := by
      decide
    have hkind : Compiled.nothing.tree.kind ≠ .error := by decide
    have hroot : u = Compiled.nothing.tree := List.mem_singleton.1 hu
    rw [hroot, hclosed]
    exact iff_of_false Bool.false_ne_true fun h => hkind h.1
  | some text => exact ⟨.ofText text settings.maxDepth, rfl, openAtMarks_ofText text _⟩

theorem body_eq {s : String} {body : List Char}
    (h : (identifier s).toList = '"' :: body ++ ['"']) : body = escapeQuotes false s.toList := by
  rw [identifier] at h
  split at h
  · rename_i hbare
    rw [h] at hbare
    cases hbare
  · rw [String.toList_ofList] at h
    exact (List.cons_inj_right _).1 (List.append_cancel_right h) |>.symm

/-- Of the diagram of any text, a label in quotes is closed by the last of its quotes, but where it is
that of the mark of a failure whose text ends in an odd run of backslashes. So if there is no such
mark the source is read back with one node for each node of the tree, and else not at all. -/
theorem build_labels_close (source : Option String) (settings : Settings) {b : Builder}
    {format : String} (hformat : Diagram.format b.format = .ok format) :
    ∃ c g b', compile source (.ok settings) = .ok c ∧ b.build c.tree = .ok (g, b') ∧
      (∀ u ∈ c.tree.walk, ∀ body,
        (identifier (nodeLabel u.label)).toList = '"' :: body ++ ['"'] →
          ∀ rest, closing false (body ++ '"' :: rest) = some (body, rest) ↔ ¬ EndsOpen u) ∧
      ((∃ items, read g.source = some items ∧
          items.filterMap Item.node? = c.tree.walk.zipIdx.map fun x =>
            (symbol (nodeName x.2), some (symbol (nodeLabel x.1.label)))) ↔
        ∀ u ∈ c.tree.walk, ¬ EndsOpen u) := by
  obtain ⟨c, hc, hopen⟩ := openAtMarks_compile source settings
  have hclosed : ∀ u ∈ c.tree.walk,
      oddAfter false (nodeLabel u.label).toList = false ↔ ¬ EndsOpen u := by
    intro u hu
    rw [← hopen u hu, Bool.not_eq_true]
  have hbuild := build_eq b c.tree
  rw [hformat] at hbuild
  refine ⟨c, _, _, hc, hbuild, fun u hu body hbody rest => ?_, ?_⟩
  · rw [body_eq hbody, closing_eq_iff]
    exact hclosed u hu
  · exact (read_drawn format c.tree).trans (forall₂_congr hclosed)

/-- Backslashes and quotes in strings, and a failure at a string that two backslashes end. -/
theorem build_labels_close_strings :
    let settings : Settings := ⟨"WARNING", 100, "svg", by decide⟩
    let source := "INSERT INTO t VALUES (1, 'it\\\\\"', 'a\\'); SELECT 'ab\\\\"
    Diagram.format "SVG" = .ok "svg" ∧
      ∃ c g b', compile (some source) (.ok settings) = .ok c ∧
        (Builder.ofFormat "SVG").build c.tree = .ok (g, b') ∧
        ∃ items, read g.source = some items ∧
          items.filterMap Item.node? = c.tree.walk.zipIdx.map fun x =>
            (symbol (nodeName x.2), some (symbol (nodeLabel x.1.label))) := by
  intro settings source
  have hformat : Diagram.format (Builder.ofFormat "SVG").format = .ok "svg" := by decide +kernel
  have hmarks : ∀ u ∈ (Compiled.ofText source 100).tree.walk, ¬ EndsOpen u := by decide +kernel
  have hscript : script? (some source) = some source := by decide +kernel
  obtain ⟨c, g, b', hc, hg, -, hread⟩ := build_labels_close (some source) settings hformat
  have hcompiled : Compiled.ofText source 100 = c := by
    rw [compile, hscript] at hc
    exact Except.ok.inj hc
  exact ⟨hformat, c, g, b', hc, hg, hread.2 (hcompiled ▸ hmarks)⟩

/-- The backslash that a statement breaks off at escapes the quote behind it. -/
theorem not_build_labels_close :
    let c := Compiled.ofText "SELECT \\" 100
    ∃ g b', (Builder.ofFormat "png").build c.tree = .ok (g, b') ∧
      (∃ u ∈ c.tree.walk, ∃ body,
        (identifier (nodeLabel u.label)).toList = '"' :: body ++ ['"'] ∧
          closing false (body ++ ['"']) = none) ∧
      read g.source = none := by
  intro c
  have hformat : Diagram.format (Builder.ofFormat "png").format = .ok "png" := by decide +kernel
  have hbuild := build_eq (Builder.ofFormat "png") c.tree
  rw [hformat] at hbuild
  have hmark : ∃ u ∈ c.tree.walk, nodeLabel u.label = "Error: \\" := by decide +kernel
  obtain ⟨u, hu, hlabel⟩ := hmark
  refine ⟨_, _, hbuild, ⟨u, hu, "Error: \\".toList, ?_, by decide⟩, ?_⟩
  · rw [hlabel]
    decide +kernel
  · refine read_drawn_open "png" fun hclosed => ?_
    have hodd := hclosed u hu
    rw [hlabel] at hodd
    cases hodd

end Diagram

end SqlScript
