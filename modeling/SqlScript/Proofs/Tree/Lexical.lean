import Mathlib.Data.List.Forall2
import SqlScript.Proofs.Tree.Children

/-!
The leaves of a tree that stand for tokens, and when trees side by side show a list of tokens.
-/

namespace SqlScript.Tree

/-- The kinds of leaves that tokens are kept in. -/
def Kind.isLexical : Kind → Bool
  | keyword | identifier | type | number | string | booleanLiteral | operator | delimiter => true
  | _ => false

/-- The nodes of these kinds, in the order of `walk`. -/
def lexical (t : Tree) : List Tree := t.walk.filter (·.kind.isLexical)

/-- The node is a leaf with the text of the token at its place. -/
structure Shows (leaf : Tree) (t : Token) : Prop where
  children_eq : leaf.children = []
  text_eq : leaf.text = t.lexeme
  place_eq : leaf.place = t.place

theorem map_place_of_shows {leaves : List Tree} {ts : List Token}
    (h : List.Forall₂ Shows leaves ts) : leaves.map place = ts.map Token.place := by
  rw [← List.forall₂_eq_eq_eq, List.forall₂_map_left_iff, List.forall₂_map_right_iff]
  exact h.imp fun _ _ h => h.place_eq

theorem map_text_of_shows {leaves : List Tree} {ts : List Token}
    (h : List.Forall₂ Shows leaves ts) : leaves.map text = ts.map Token.lexeme := by
  rw [← List.forall₂_eq_eq_eq, List.forall₂_map_left_iff, List.forall₂_map_right_iff]
  exact h.imp fun _ _ h => h.text_eq

/-- The trees show the tokens, each once and in their order. -/
def Spells (trees : List Tree) (ts : List Token) : Prop :=
  List.Forall₂ Shows (trees.flatMap lexical) ts

theorem lexical_node {l : Label} (hl : l.kind.isLexical = false) (children : List Tree) :
    (node l children).lexical = children.flatMap lexical := by
  rw [lexical, walk_eq, List.filter_cons_of_neg (by simpa [kind] using hl), List.filter_flatMap]
  rfl

theorem lexical_plain {kind : Kind} (hk : kind.isLexical = false) (text : String) (place : Place)
    (children : List Tree) :
    (plain kind text place children).lexical = children.flatMap lexical :=
  lexical_node hk children

theorem lexical_leaf {kind : Kind} (hk : kind.isLexical = true) (t : Token) :
    (leaf kind t).lexical = [leaf kind t] := by
  rw [lexical, walk_eq, List.filter_cons_of_pos (by simpa using hk)]
  rfl

theorem lexical_subset {t c : Tree} (hc : c ∈ t.children) : c.lexical ⊆ t.lexical := by
  intro u hu
  rw [lexical, List.mem_filter] at hu ⊢
  rw [walk_eq]
  exact ⟨List.mem_cons_of_mem _ (List.mem_flatMap.2 ⟨c, hc, hu.1⟩), hu.2⟩

theorem mem_lexical_self {t : Tree} (hk : t.kind.isLexical = true) : t ∈ t.lexical := by
  rw [lexical, walk_eq]
  exact List.mem_filter.2 ⟨List.mem_cons_self .., hk⟩

theorem mem_lexical_leaf {kind : Kind} (hk : kind.isLexical = true) (t : Token) :
    leaf kind t ∈ (leaf kind t).lexical := by
  rw [lexical_leaf hk]
  exact List.mem_singleton_self _

theorem lexical_leaf_error (t : Token) : (leaf .error t).lexical = [] := lexical_plain rfl ..

namespace Spells

variable {trees trees' : List Tree} {ts ts' : List Token}

theorem nil : Spells [] [] := List.Forall₂.nil

theorem append (h : Spells trees ts) (h' : Spells trees' ts') :
    Spells (trees ++ trees') (ts ++ ts') := by
  rw [Spells, List.flatMap_append]
  exact List.rel_append h h'

theorem cons {tree : Tree} (h : Spells [tree] ts) (h' : Spells trees ts') :
    Spells (tree :: trees) (ts ++ ts') :=
  h.append h'

theorem leaf {kind : Kind} (hk : kind.isLexical = true) (t : Token) :
    Spells [Tree.leaf kind t] [t] := by
  rw [Spells, List.flatMap_singleton, lexical_leaf hk]
  exact .cons ⟨rfl, rfl, rfl⟩ .nil

theorem leaf_cons {kind : Kind} (hk : kind.isLexical = true) (t : Token) (h : Spells trees ts) :
    Spells (Tree.leaf kind t :: trees) (t :: ts) :=
  (leaf hk t).append h

theorem mark (t : Token) : Spells [Tree.leaf .error t] [] := by
  rw [Spells, List.flatMap_singleton, lexical_leaf_error]
  exact .nil

theorem node {kind : Kind} (hk : kind.isLexical = false) (text : String) (place : Place)
    (h : Spells trees ts) : Spells [plain kind text place trees] ts := by
  rw [Spells, List.flatMap_singleton, lexical_plain hk]
  exact h

theorem leaves {kind : Kind} (hk : kind.isLexical = true) (ts : List Token) :
    Spells (ts.map (Tree.leaf kind)) ts := by
  induction ts with
  | nil => exact nil
  | cons t ts ih => exact leaf_cons hk t ih

theorem flatMap {α : Type} {trees : α → List Tree} {tokens : α → List Token}
    (h : ∀ a, Spells (trees a) (tokens a)) (as : List α) :
    Spells (as.flatMap trees) (as.flatMap tokens) := by
  induction as with
  | nil => exact nil
  | cons a as ih => exact (h a).append ih

end Spells

end SqlScript.Tree
