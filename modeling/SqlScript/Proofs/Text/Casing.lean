import SqlScript.Text.Casing

/-!
Upper case is stable: what the mapping yields it leaves alone. The characters that the table names
and those that it yields are two sets of code points, written as numbers and compared at one stroke.
-/

namespace SqlScript.Text

/-! ## Sets as numbers -/

/-- The number whose bits are the members of a list. -/
def mask (codes : List Nat) : Nat := codes.foldr (fun n m => m ||| 1 <<< n) 0

theorem testBit_mask {codes : List Nat} {n : Nat} : (mask codes).testBit n = true ↔ n ∈ codes := by
  induction codes with
  | nil => simp [mask]
  | cons code codes ih =>
    have hbit : (1 <<< code).testBit n = decide (code = n) := by
      rw [Nat.one_shiftLeft, Nat.testBit_two_pow]
    rw [mask, List.foldr_cons, Nat.testBit_or, Bool.or_eq_true, hbit, List.mem_cons]
    simp only [mask] at ih
    rw [ih, decide_eq_true_eq, or_comm, eq_comm]

theorem not_mem_of_land_mask {a b : List Nat} (h : mask a &&& mask b = 0) {n : Nat} (hb : n ∈ b) :
    n ∉ a := by
  intro ha
  have hbit : (mask a &&& mask b).testBit n = true := by
    rw [Nat.testBit_and, testBit_mask.2 ha, testBit_mask.2 hb, Bool.and_self]
  rw [h, Nat.zero_testBit] at hbit
  cases hbit

/-! ## Tables -/

def CaseRun.codes (r : CaseRun) : List Nat :=
  List.range' r.first ((r.last - r.first) / r.stride + 1) r.stride

theorem CaseRun.mem_codes {r : CaseRun} {n : Nat} (h : r.covers n = true) : n ∈ r.codes := by
  simp only [covers, Bool.and_eq_true, decide_eq_true_eq, beq_iff_eq] at h
  obtain ⟨⟨hfirst, hlast⟩, hmod⟩ := h
  refine List.mem_range'.2 ⟨(n - r.first) / r.stride, ?_, ?_⟩
  · exact Nat.lt_succ_of_le (Nat.div_le_div_right (Nat.sub_le_sub_right hlast _))
  · have hdvd := Nat.mul_div_cancel' (Nat.dvd_of_mod_eq_zero hmod)
    omega

namespace CaseTable

variable {t : CaseTable} {c d : Char}

/-- The code points that a table names. -/
def keys (t : CaseTable) : List Nat := t.runs.flatMap CaseRun.codes ++ t.expansions.map (·.1)

/-- The code points that it sends them to. -/
def images (t : CaseTable) : List Nat :=
  (t.runs.flatMap fun r => r.codes.map fun n : Nat => (n + r.offset).toNat) ++
    t.expansions.flatMap (·.2)

theorem image_of_not_mem_keys (h : c.toNat ∉ t.keys) : t.image c = [c] := by
  rw [keys, List.mem_append, not_or] at h
  have hlookup : t.expansions.lookup c.toNat = none := by
    rw [List.lookup_eq_none_iff]
    intro e he
    rw [bne_iff_ne]
    intro heq
    exact h.2 (heq ▸ List.mem_map_of_mem he)
  have hfind : t.runs.find? (·.covers c.toNat) = none := by
    rw [List.find?_eq_none]
    intro r hr hc
    exact h.1 (List.mem_flatMap.2 ⟨r, hr, CaseRun.mem_codes hc⟩)
  rw [image, hlookup, hfind]

theorem mem_image (h : d ∈ t.image c) :
    t.image c = [c] ∨ ∃ n ∈ t.images, d = Char.ofNat n := by
  unfold image at h ⊢
  split at h
  · rename_i codes hcodes
    obtain ⟨code, hcode, rfl⟩ := List.mem_map.1 h
    obtain ⟨l₁, l₂, hl, -⟩ := List.lookup_eq_some_iff.1 hcodes
    have hmem : (c.toNat, codes) ∈ t.expansions := by simp [hl]
    right
    exact ⟨code, List.mem_append_right _ (List.mem_flatMap.2 ⟨_, hmem, hcode⟩), rfl⟩
  · split at h
    · rename_i r hr
      right
      have hmem := List.mem_of_find?_eq_some hr
      have hcovers : r.covers c.toNat = true := by simpa using List.find?_some hr
      refine ⟨(c.toNat + r.offset).toNat, ?_, List.mem_singleton.1 h⟩
      refine List.mem_append_left _ (List.mem_flatMap.2 ⟨r, hmem, ?_⟩)
      exact List.mem_map.2 ⟨c.toNat, CaseRun.mem_codes hcovers, rfl⟩
    · left
      rfl

end CaseTable

/-! ## Upper case -/

/-- The small letters of the first 128 characters. -/
def smallLetters : List Nat := List.range' 97 26

theorem upperTable_images_stable :
    mask (smallLetters ++ upperTable.keys) &&& mask upperTable.images = 0 := by
  decide +kernel

theorem upperChar_of_not_mem {c : Char} (h : c.toNat ∉ smallLetters ++ upperTable.keys) :
    upperChar c = [c] := by
  rw [List.mem_append, not_or] at h
  unfold upperChar
  split
  · have hc : c.toUpper = c := by
      unfold Char.toUpper
      refine dif_neg fun hsmall => h.1 (List.mem_range'_1.2 ⟨hsmall.1, ?_⟩)
      exact Nat.lt_succ_of_le hsmall.2
    rw [hc]
  · exact CaseTable.image_of_not_mem_keys h.2

theorem upperChar_of_mem_upperChar {c d : Char} (h : d ∈ upperChar c) : upperChar d = [d] := by
  unfold upperChar at h
  split at h
  · rename_i hc
    have hall : ∀ n < 128, upperChar (Char.ofNat n).toUpper = [(Char.ofNat n).toUpper] := by
      decide +kernel
    rw [List.mem_singleton.1 h]
    simpa using hall c.toNat hc
  · rename_i hc
    rcases CaseTable.mem_image h with hsame | ⟨n, hn, rfl⟩
    · rw [hsame, List.mem_singleton] at h
      rw [h, upperChar, if_neg hc, hsame]
    · by_cases hv : n.isValidChar
      · have hnat : (Char.ofNat n).toNat = n := by
          rw [Char.ofNat, dif_pos hv]
          rfl
        apply upperChar_of_not_mem
        rw [hnat]
        exact not_mem_of_land_mask upperTable_images_stable hn
      · have hzero : Char.ofNat n = Char.ofNat 0 := by
          rw [Char.ofNat, dif_neg hv]
          rfl
        rw [hzero]
        rfl

theorem upperChars_upperChars (cs : List Char) : upperChars (upperChars cs) = upperChars cs := by
  have hkept : ∀ ds : List Char, (∀ d ∈ ds, upperChar d = [d]) → upperChars ds = ds := by
    intro ds hds
    induction ds with
    | nil => rfl
    | cons d ds ih =>
      rw [upperChars_cons, hds d (List.mem_cons_self ..),
        ih fun e he => hds e (List.mem_cons_of_mem _ he), List.singleton_append]
  apply hkept
  intro d hd
  obtain ⟨c, -, hc⟩ := List.mem_flatMap.1 hd
  exact upperChar_of_mem_upperChar hc

theorem upper_upper (s : String) : upper (upper s) = upper s := by
  rw [upper, toList_upper, upperChars_upperChars]
  rfl

end SqlScript.Text
