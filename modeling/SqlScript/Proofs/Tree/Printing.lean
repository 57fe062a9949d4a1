import SqlScript.Proofs.Tree.Lexical

/-!
Trees written down: the texts of their leaves with single spaces between them, and parentheses
around the conditions that would be read otherwise without them.
-/

namespace SqlScript.Tree

/-! ## Parentheses -/

def Label.isCondition (l : Label) (word : String) : Bool := l.kind == .condition && l.text == word

/-- Whether a child stands in parentheses below its parent; `leads` says whether it is the first
child. AND binds tighter than OR and both group to the left, NOT binds tighter than both, and no
condition is an operand of a comparison or a value without parentheses. -/
def Label.groups (parent : Label) (leads : Bool) (child : Label) : Bool :=
  match parent.kind with
  | .condition =>
    if parent.text = "OR" then !leads && child.isCondition "OR"
    else if parent.text = "AND" then
      child.isCondition "OR" || (!leads && child.isCondition "AND")
    else if parent.text = "NOT" then child.isCondition "OR" || child.isCondition "AND"
    else child.kind == .condition
  | .valueList | .assignment => child.kind == .condition
  | _ => false

def bracketed (needed : Bool) (words : List String) : List String :=
  if needed then "(" :: (words ++ [")"]) else words

/-! ## Words -/

mutual

def words : Tree → List String
  | node l cs => if l.kind.isLexical then [l.text] else wordsBelow l true cs

/-- The words of siblings below their parent; `leads` says whether the first of them is its first
child. -/
def wordsBelow (parent : Label) (leads : Bool) : List Tree → List String
  | [] => []
  | t :: ts =>
    bracketed (parent.groups leads t.label) (words t) ++ wordsBelow parent false ts

end

def printed (t : Tree) : String := " ".intercalate t.words

theorem words_leaf {kind : Kind} (hk : kind.isLexical = true) (t : Token) :
    (leaf kind t).words = [t.lexeme] := by
  rw [leaf, plain, words]
  exact if_pos hk

theorem words_plain {kind : Kind} (hk : kind.isLexical = false) (text : String) (place : Place)
    (children : List Tree) :
    (plain kind text place children).words =
      wordsBelow (.plain kind text place) true children := by
  rw [plain, words]
  exact if_neg (by simp [Label.plain, hk])

theorem groups_of_kind_ne {child : Label} (h : child.kind ≠ .condition) (parent : Label)
    (leads : Bool) : parent.groups leads child = false := by
  have hword (word : String) : child.isCondition word = false := by
    simp [Label.isCondition, h]
  unfold Label.groups
  split <;> simp [hword, h]

theorem wordsBelow_leaf {kind : Kind} (hk : kind.isLexical = true) (t : Token) (parent : Label)
    (leads : Bool) (ts : List Tree) :
    wordsBelow parent leads (leaf kind t :: ts) = t.lexeme :: wordsBelow parent false ts := by
  have hkind : (leaf kind t).label.kind ≠ .condition := by
    rintro hc
    rw [show kind = .condition from hc] at hk
    cases hk
  rw [wordsBelow, groups_of_kind_ne hkind, words_leaf hk]
  rfl

/-- Below most nodes there are no parentheses, and the words are those of the children. -/
theorem words_plain_of_groups {kind : Kind} {text : String} {place : Place}
    (hk : kind.isLexical = false)
    (hg : ∀ leads child, (Label.plain kind text place).groups leads child = false)
    (children : List Tree) : (plain kind text place children).words = children.flatMap words := by
  have hbelow (leads : Bool) :
      wordsBelow (.plain kind text place) leads children = children.flatMap words := by
    induction children generalizing leads with
    | nil => rfl
    | cons t ts ih =>
      rw [wordsBelow, hg, ih false, List.flatMap_cons]
      rfl
  rw [words_plain hk, hbelow]

theorem flatMap_words_cons_leaf {kind : Kind} (hk : kind.isLexical = true) (t : Token)
    (ts : List Tree) : (leaf kind t :: ts).flatMap words = t.lexeme :: ts.flatMap words := by
  rw [List.flatMap_cons, words_leaf hk, List.singleton_append]

theorem flatMap_words_leaf {kind : Kind} (hk : kind.isLexical = true) (ts : List Token) :
    (ts.map (leaf kind)).flatMap words = ts.map Token.lexeme := by
  induction ts with
  | nil => rfl
  | cons t ts ih =>
    rw [List.map_cons, flatMap_words_cons_leaf hk, ih, List.map_cons]

/-! ## Trees without places -/

def Label.unplaced (l : Label) : Label := { l with place := ⟨none, none⟩ }

/-- What a tree says, wherever its parts may stand. -/
def unplaced (t : Tree) : Tree := t.map Label.unplaced

theorem unplaced_plain (kind : Kind) (text : String) (place : Place) (children : List Tree) :
    (plain kind text place children).unplaced =
      plain kind text ⟨none, none⟩ (children.map unplaced) := by
  rw [unplaced, plain, map, mapAll_eq_map]
  rfl

end SqlScript.Tree
