import SqlScript.Proofs.Grammar.Broken
import SqlScript.Proofs.Grammar.Spelling
import SqlScript.Proofs.Grammar.Uniform

/-!
Where the texts of nodes come from. A mark of a failure has the word that it stands at, whatever that
is; a node of any other kind has no text, that of an operator, or that of a token that is no error.
-/

namespace SqlScript.Grammar
open SqlScript.Phrase SqlScript.Tree

/-! ## Nodes that stand for no token -/

/-- Of nodes that are no leaves of tokens, only conditions have a text. -/
def Worded (l : Label) : Prop :=
  l.kind.isLexical = true ∨ l.kind = .error ∨ l.text = "" ∨ l.text ∈ conditionTexts

theorem common_worded : Common Worded where
  leaf h _ := .inl h
  clause _ _ := .inr (.inr (.inl rfl))
  condition h _ := .inr (.inr (.inr h))

theorem worded_mark (t : Token) : ∀ u ∈ (leaf .error t).walk, Worded u.label := by
  intro u hu
  rw [List.mem_singleton.1 hu]
  exact .inr (.inl rfl)

theorem worded_parse (tokens : List Token) (limit : Int) :
    ∀ u ∈ (parse tokens limit).tree.walk, Worded u.label := by
  refine every_plain (.inr (.inr (.inl rfl))) fun t ht => ?_
  have hmem : t ∈ (parse tokens limit).tree.children := ht
  obtain ⟨s, lead, parts, mark, h⟩ := exists_stated hmem
  rw [h.tree_eq]
  refine every_plain (.inr (.inr (.inl rfl))) fun c hc => ?_
  have hchild : c ∈ t.children := by
    rw [h.children_eq]
    exact hc
  rcases h.child c hchild with hpart | ⟨u, rfl⟩
  · exact common_worded.every_part hpart
  · exact worded_mark u

/-! ## Leaves of tokens -/

def blanked (t : Token) : Token := if t.kind = .error then { t with lexeme := "" } else t

def wordless (l : Label) : Label := if l.kind = .error then { l with text := "" } else l

theorem kind_wordless (l : Label) : (wordless l).kind = l.kind := by
  rw [wordless]
  split <;> rfl

theorem wordless_of_ne {l : Label} (h : l.kind ≠ .error) : wordless l = l := if_neg h

/-- No rule takes an error, so their texts can be dropped. -/
theorem alike_blanked (t : Token) : t.Alike wordless wordless (blanked t) := by
  by_cases h : t.kind = .error
  · rw [blanked, if_pos h]
    refine ⟨rfl, fun hne => absurd h hne, fun hsign => ?_, fun kind _ herror => ?_, fun _ _ => rfl⟩
    · simp [h] at hsign
    · rw [herror h]
      rfl
  · rw [blanked, if_neg h]
    exact .refl t

section

variable {tokens : List Token} {limit : Int} {u : Tree}
  (hu : u ∈ (parse tokens limit).tree.walk)
include hu

theorem exists_label_eq (hkind : u.kind ≠ .error) :
    ∃ v ∈ (parse (tokens.map blanked) limit).tree.walk, v.label = u.label := by
  have halike : List.Forall₂ (Token.Alike wordless wordless) tokens (tokens.map blanked) := by
    rw [List.forall₂_map_right_iff, List.forall₂_same]
    exact fun t _ => alike_blanked t
  have hwalks := congrArg walk (parse_tree_alike limit halike)
  rw [walk_map, walk_map] at hwalks
  have hmem := List.mem_map_of_mem (f := Tree.map wordless) hu
  rw [hwalks] at hmem
  obtain ⟨v, hv, hmap⟩ := List.mem_map.1 hmem
  have hvkind : v.kind = u.kind := by rw [← kind_map kind_wordless v, hmap, kind_map kind_wordless]
  have hlabels : wordless v.label = wordless u.label := by
    rw [← label_map wordless, hmap, label_map]
  refine ⟨v, hv, ?_⟩
  rwa [wordless_of_ne (l := u.label) hkind, wordless_of_ne] at hlabels
  rw [← hvkind] at hkind
  exact hkind

theorem text_lexical (hkind : u.kind.isLexical = true) :
    u.text = "" ∨ ∃ t ∈ tokens, t.kind ≠ .error ∧ u.text = t.lexeme := by
  have hne : u.kind ≠ .error := by
    intro herror
    rw [herror] at hkind
    cases hkind
  obtain ⟨v, hv, hlabel⟩ := exists_label_eq hu hne
  have hlexical : v ∈ (parse (tokens.map blanked) limit).tree.lexical := by
    refine List.mem_filter.2 ⟨hv, ?_⟩
    rw [kind, hlabel]
    exact hkind
  obtain ⟨kept, hkept, hshows⟩ := exists_kept (tokens.map blanked) limit
  have htext : u.text ∈ kept.map Token.lexeme := by
    rw [← map_text_of_shows hshows, text, ← hlabel]
    exact List.mem_map_of_mem hlexical
  obtain ⟨w, hw, hlexeme⟩ := List.mem_map.1 htext
  obtain ⟨t, ht, rfl⟩ := List.mem_map.1 ((hkept.trans (List.takeWhile_sublist _)).subset hw)
  rw [blanked] at hlexeme
  split at hlexeme
  · exact .inl hlexeme.symm
  · exact .inr ⟨t, ht, ‹_›, hlexeme.symm⟩

/-- A node that marks no failure has no text, that of an operator, or that of a token that is no
error. -/
theorem text_of_ne_error (hkind : u.kind ≠ .error) :
    u.text = "" ∨ u.text ∈ conditionTexts ∨ ∃ t ∈ tokens, t.kind ≠ .error ∧ u.text = t.lexeme := by
  rcases worded_parse tokens limit u hu with hlexical | herror | hempty | hcondition
  · exact (text_lexical hu hlexical).imp_right .inr
  · exact absurd herror hkind
  · exact .inl hempty
  · exact .inr (.inl hcondition)

end

end SqlScript.Grammar
