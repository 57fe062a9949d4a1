import SqlScript.Proofs.Tree.Map

/-!
Moving the places of a tree and changing the spelling of what it says. The maps need not be
injective: several places may be moved to one, and several spellings become one.
-/

namespace SqlScript

/-! ## Moving places -/

def Tree.Label.moved (ρ : Place → Place) (l : Label) : Label := { l with place := ρ l.place }

def Tree.moved (ρ : Place → Place) (t : Tree) : Tree := t.map (Label.moved ρ)

def Diagnostic.moved (ρ : Place → Place) (d : Diagnostic) : Diagnostic :=
  { d with place := ρ d.place }

/-! ## Moving places and changing the spelling -/

/-- The map moves places and changes spellings. The text of a condition stays: it is the sign or
word between its parts, in upper case already. What marks a failure may be any text, and annotations
are not looked at. -/
structure Tree.Label.Recasting (ρ : Place → Place) (φ : String → String) (f : Label → Label) :
    Prop where
  kind_eq : ∀ l, (f l).kind = l.kind
  place_eq : ∀ l, (f l).place = ρ l.place
  condition_eq : ∀ {l}, l.kind = .condition → (f l).text = l.text
  text_eq : ∀ {l}, l.kind ≠ .condition → l.kind ≠ .error → (f l).text = φ l.text

def Tree.Label.recast (ρ : Place → Place) (φ : String → String) (l : Label) : Label :=
  { l with
    text := if l.kind = .condition then l.text else φ l.text
    place := ρ l.place
    symbolRef := l.symbolRef.map φ }

def Tree.recast (ρ : Place → Place) (φ : String → String) (t : Tree) : Tree :=
  t.map (Label.recast ρ φ)

def Diagnostic.recast (ρ : Place → Place) (φ : String → String) (d : Diagnostic) : Diagnostic :=
  ⟨ρ d.place, φ d.message⟩

namespace Tree

variable {ρ : Place → Place} {φ : String → String}

namespace Label.Recasting

variable {f : Label → Label} (hf : Recasting ρ φ f) {t : Tree}
include hf

theorem place_map : (t.map f).place = ρ t.place := by
  rw [Tree.place, label_map, hf.place_eq]
  rfl

theorem text_map (hc : t.kind ≠ .condition) (he : t.kind ≠ .error) :
    (t.map f).text = φ t.text := by
  rw [Tree.text, label_map, hf.text_eq hc he]
  rfl

theorem text_map_of_find? {kind : Kind} {i : Nat} {c : Tree} (h : t.find? kind = some (i, c))
    (hc : kind ≠ .condition) (he : kind ≠ .error) : (c.map f).text = φ c.text := by
  rw [← (mem_of_find? h).2] at hc he
  exact hf.text_map hc he

end Label.Recasting

variable (ρ φ)

theorem Label.recasting_recast : Recasting ρ φ (recast ρ φ) where
  kind_eq _ := rfl
  place_eq _ := rfl
  condition_eq h := if_pos h
  text_eq h _ := if_neg h

variable (t : Tree)

theorem recast_id : t.recast ρ id = t.moved ρ := by
  have hlabel : Label.recast ρ id = Label.moved ρ := by
    funext l
    simp [Label.recast, Label.moved]
  rw [Tree.recast, hlabel, moved]

theorem moved_id : t.moved id = t := map_id t

/-- What was recast may be recast again for its spelling, which changes nothing more. -/
theorem recast_recast {φ : String → String} (hφ : ∀ s, φ (φ s) = φ s) :
    (t.recast ρ φ).recast id φ = t.recast ρ φ := by
  have hlabel : Label.recast id φ ∘ Label.recast ρ φ = Label.recast ρ φ := by
    funext l
    by_cases h : l.kind = .condition <;> simp [Label.recast, Function.comp_def, h, hφ]
  rw [Tree.recast, Tree.recast, map_map, hlabel]

end Tree

end SqlScript
