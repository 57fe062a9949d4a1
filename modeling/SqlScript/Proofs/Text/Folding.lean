import SqlScript.Text.Blank
import SqlScript.Text.Casing

/-!
Folding the case of the first 128 characters. The full mappings to upper and to lower case do not
tell a text from its folding: that a sigma is final depends on which letters around it have case,
not on the case that they have.
-/

namespace SqlScript.Text

/-- The text with the capitals A to Z made small, and all else as it is. -/
def fold (s : String) : String := String.ofList (s.toList.map Char.toLower)

theorem toList_fold (s : String) : (fold s).toList = s.toList.map Char.toLower := by
  simp [fold]

theorem fold_ofList (cs : List Char) : fold (String.ofList cs) = String.ofList (cs.map Char.toLower) := by
  simp [fold]

theorem length_fold (s : String) : (fold s).length = s.length := by
  rw [← String.length_toList, toList_fold, List.length_map, String.length_toList]

theorem fold_append (s t : String) : fold (s ++ t) = fold s ++ fold t := by
  simp [fold]

/-! ## Characters -/

theorem toLower_capital : ∀ n < 26, (Char.ofNat (65 + n)).toLower = Char.ofNat (97 + n) := by
  decide

theorem toLower_cases (c : Char) :
    c.toLower = c ∨ ∃ n < 26, c = Char.ofNat (65 + n) ∧ c.toLower = Char.ofNat (97 + n) := by
  by_cases hcapital : c.toNat ≥ 65 ∧ c.toNat ≤ 90
  · right
    have hn : c.toNat - 65 < 26 := by omega
    have hc : c = Char.ofNat (65 + (c.toNat - 65)) := by
      rw [Nat.add_sub_cancel' hcapital.1, Char.ofNat_toNat]
    have hlower := toLower_capital _ hn
    rw [← hc] at hlower
    exact ⟨c.toNat - 65, hn, hc, hlower⟩
  · left
    exact dif_neg hcapital

/-- What does not tell small letters from capitals does not tell any character from its folding. -/
theorem apply_toLower {α : Type} {f : Char → α}
    (h : ∀ n < 26, f (Char.ofNat (97 + n)) = f (Char.ofNat (65 + n))) (c : Char) :
    f c.toLower = f c := by
  rcases toLower_cases c with hkept | ⟨n, hn, hc, hlower⟩
  · rw [hkept]
  · rw [hlower, hc, h n hn]

theorem toLower_toLower (c : Char) : c.toLower.toLower = c.toLower :=
  apply_toLower (by decide) c

theorem isBlankChar_toLower (c : Char) : isBlankChar c.toLower = isBlankChar c :=
  apply_toLower (by decide) c

theorem isAlpha_toLower (c : Char) : c.toLower.isAlpha = c.isAlpha :=
  apply_toLower (by decide) c

theorem toLower_of_not_isAlpha {c : Char} (h : c.isAlpha = false) : c.toLower = c := by
  rcases toLower_cases c with hkept | ⟨n, hn, rfl, -⟩
  · exact hkept
  · have hletter : ∀ n < 26, (Char.ofNat (65 + n)).isAlpha = true := by decide
    rw [hletter n hn] at h
    cases h

/-- A character that is no letter is met in a text where it is met in the folding. -/
theorem toLower_eq_iff {c d : Char} (hd : d.isAlpha = false) : c.toLower = d ↔ c = d := by
  constructor
  · rintro rfl
    rw [isAlpha_toLower] at hd
    rw [toLower_of_not_isAlpha hd]
  · rintro rfl
    exact toLower_of_not_isAlpha hd

theorem map_toLower_of_not_isAlpha {cs : List Char} (h : ∀ c ∈ cs, c.isAlpha = false) :
    cs.map Char.toLower = cs := by
  rw [List.map_congr_left fun c hc => toLower_of_not_isAlpha (h c hc), List.map_id']

theorem upperChar_toLower (c : Char) : upperChar c.toLower = upperChar c :=
  apply_toLower (by decide) c

theorem isCased_toLower (c : Char) : isCased c.toLower = isCased c :=
  apply_toLower (by decide) c

theorem isCaseIgnored_toLower (c : Char) : isCaseIgnored c.toLower = isCaseIgnored c :=
  apply_toLower (by decide) c

/-! ## Texts -/

theorem fold_fold (s : String) : fold (fold s) = fold s := by
  have hmap : Char.toLower ∘ Char.toLower = Char.toLower := funext toLower_toLower
  rw [fold, toList_fold, List.map_map, hmap, fold]

theorem isBlank_fold (s : String) : isBlank (fold s) = isBlank s := by
  simp [isBlank, toList_fold, Function.comp_def, isBlankChar_toLower]

theorem upper_fold (s : String) : upper (fold s) = upper s := by
  rw [upper, toList_fold, upperChars, List.flatMap_map]
  simp only [upperChar_toLower]
  rfl

theorem casedAhead_map_toLower (cs : List Char) :
    casedAhead (cs.map Char.toLower) = casedAhead cs := by
  have hignored : isCaseIgnored ∘ Char.toLower = isCaseIgnored := funext isCaseIgnored_toLower
  rw [casedAhead, casedAhead, List.dropWhile_map, hignored, List.head?_map]
  cases (cs.dropWhile isCaseIgnored).head? with
  | none => rfl
  | some c => exact isCased_toLower c

theorem lowerChar_toLower (before : Bool) (c : Char) (rest : List Char) :
    lowerChar before c.toLower (rest.map Char.toLower) = lowerChar before c rest := by
  rcases toLower_cases c with hkept | ⟨n, hn, rfl, hlower⟩
  · rw [hkept, lowerChar, lowerChar, casedAhead_map_toLower]
  · have hsmall : ∀ n < 26, (Char.ofNat (97 + n)).toNat < 128 := by decide
    have hcapital : ∀ n < 26, (Char.ofNat (65 + n)).toNat < 128 := by decide
    rw [lowerChar, lowerChar, if_pos (hlower ▸ hsmall n hn), if_pos (hcapital n hn),
      toLower_toLower]

theorem lowerFrom_map_toLower (before : Bool) (cs : List Char) :
    lowerFrom before (cs.map Char.toLower) = lowerFrom before cs := by
  induction cs generalizing before with
  | nil => rfl
  | cons c cs ih =>
    have hbefore : casedBefore before c.toLower = casedBefore before c := by
      rw [casedBefore, casedBefore, isCaseIgnored_toLower, isCased_toLower]
    rw [List.map_cons, lowerFrom, lowerFrom, lowerChar_toLower, hbefore, ih]

theorem lower_fold (s : String) : lower (fold s) = lower s := by
  rw [lower, toList_fold, lowerChars, lowerFrom_map_toLower]
  rfl

/-! ## Changes of case -/

/-- A change of spelling that no word or name is told by, these being compared in upper or in lower
case. A text is changed part by part, and once for all; points stay. -/
structure CaseBlind (φ : String → String) : Prop where
  upper_eq : ∀ s, upper (φ s) = upper s
  lower_eq : ∀ s, lower (φ s) = lower s
  append_eq : ∀ s t, φ (s ++ t) = φ s ++ φ t
  idempotent : ∀ s, φ (φ s) = φ s
  point_eq : ∀ s, (φ s).toList.contains '.' = s.toList.contains '.'

theorem CaseBlind.id : CaseBlind id :=
  ⟨fun _ => rfl, fun _ => rfl, fun _ _ => rfl, fun _ => rfl, fun _ => rfl⟩

theorem caseBlind_fold : CaseBlind fold where
  upper_eq := upper_fold
  lower_eq := lower_fold
  append_eq := fold_append
  idempotent := fold_fold
  point_eq s := by
    rw [toList_fold, List.contains_eq_any_beq, List.contains_eq_any_beq, List.any_map]
    congr 1
    funext c
    exact apply_toLower (f := fun c => '.' == c) (by decide) c

end SqlScript.Text
