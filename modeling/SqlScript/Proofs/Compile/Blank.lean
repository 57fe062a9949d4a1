import SqlScript.Compile
import SqlScript.Proofs.Grammar.Broken
import SqlScript.Proofs.Grammar.Plain

/-!
Blank texts. A text that the character database calls blank is not compiled. The scanner passes over
six of its characters and makes an error token of every other, so there the short way is not that of
the stages; everywhere else it is.
-/

namespace SqlScript
open SqlScript.Text

/-! ## Scanning -/

theorem first_of_isBlankChar {c : Char} (h : isBlankChar c = true) (rest : List Char) :
    Piece.first c rest = if isSpace c then .blank c else .lexeme .error [c] := by
  have hall : ∀ n ∈ blankCodes, isWordStart (Char.ofNat n) = false ∧
      isDigit (Char.ofNat n) = false ∧
      Char.ofNat n ∉ ['-', '/', '\x27', '=', '<', '!', '>', '*', '(', ')', ',', ';'] := by
    decide +kernel
  have hc := hall c.toNat (by simpa [isBlankChar] using h)
  rw [Char.ofNat_toNat] at hc
  obtain ⟨hword, hdigit, hsign⟩ := hc
  simp only [List.mem_cons, List.not_mem_nil, or_false, not_or] at hsign
  simp [Piece.first, Piece.sign, operators, delimiters, hword, hdigit, hsign]

theorem pieces_of_blank {cs : List Char} (h : ∀ c ∈ cs, isBlankChar c = true) :
    pieces cs = cs.map fun c => if isSpace c then .blank c else .lexeme .error [c] := by
  induction cs with
  | nil => exact pieces_nil
  | cons c cs ih =>
    rw [List.forall_mem_cons] at h
    have hlength : (Piece.first c cs).text.length = 1 := by
      rw [first_of_isBlankChar h.1]
      split <;> rfl
    rw [pieces_cons, hlength, List.drop_one, List.tail_cons, ih h.2, first_of_isBlankChar h.1,
      List.map_cons]

/-- The characters of a text that the scanner does not pass over as white space. -/
def strays (source : String) : List Char := source.toList.filter (!isSpace ·)

theorem lexemes_of_isBlank {source : String} (h : isBlank source = true) :
    (lexemes source).map (fun t => (t.kind, t.lexeme)) =
      (strays source).map fun c => (.error, String.ofList [c]) := by
  have hlocate (p : Position) (cs : List Char) :
      (locate p (cs.map fun c => if isSpace c then .blank c else .lexeme .error [c])).map
          (fun t => (t.kind, t.lexeme)) =
        (cs.filter (!isSpace ·)).map fun c => (.error, String.ofList [c]) := by
    induction cs generalizing p with
    | nil => rfl
    | cons c cs ih =>
      rw [List.map_cons, locate, List.filter_cons]
      cases isSpace c with
      | true => exact ih _
      | false => exact congrArg _ (ih _)
  rw [isBlank, List.all_eq_true] at h
  rw [lexemes_eq, pieces_of_blank h, hlocate, strays]

theorem lexemes_eq_nil_iff {source : String} (h : isBlank source = true) :
    lexemes source = [] ↔ strays source = [] := by
  rw [← List.map_eq_nil_iff (f := fun t => (t.kind, t.lexeme)), lexemes_of_isBlank h,
    List.map_eq_nil_iff]

/-! ## Parsing -/

namespace Grammar

theorem recover_of_errors {ts : List Token} (h : ∀ t ∈ ts, t.kind = .error) : recover ts = [] := by
  induction ts with
  | nil => rfl
  | cons t ts ih =>
    rw [List.forall_mem_cons] at h
    have hopener : Statement.isOpener t = false := isOpener_of_kind_ne (by simp [h.1])
    have hmark : t.isDelimiter ";" = false := Phrase.isDelimiter_of_kind_ne (by simp [h.1])
    simp [recover, hopener, hmark, ih h.2]

theorem rounds_of_errors (room : Nat) (stop : Token) {ts : List Token}
    (h : ∀ t ∈ ts, t.kind = .error) :
    rounds room stop false ts = (ts.take 1).map fun t => ⟨none, some ⟨noStatement, t⟩⟩ := by
  cases ts with
  | nil => rw [rounds, List.take_nil, List.map_nil]
  | cons t ts =>
    have hopener : Statement.ofToken? t = none := by
      have hnot : Statement.isOpener t = false :=
        isOpener_of_kind_ne (by simp [h t (List.mem_cons_self ..)])
      simpa [Statement.isOpener_eq] using hnot
    have hattempt : statement room stop (t :: ts) = ⟨none, some noStatement, t :: ts⟩ := by
      rw [statement, hopener]
    have hnext : (statement room stop (t :: ts)).next false = [] := by
      rw [hattempt]
      exact recover_of_errors h
    rw [rounds, hnext, hattempt, rounds]
    rfl

theorem parse_of_errors {source : String} (h : ∀ t ∈ lexemes source, t.kind = .error)
    (limit : Int) :
    parse (scan source) limit =
      ⟨program (current (endMark (lexemes source)) (lexemes source)).place [],
        ((lexemes source).take 1).map (.found noStatement.message)⟩ := by
  rw [parse, before_closed, before_scan, stopOf_scan, rounds_of_errors _ _ h]
  cases lexemes source <;> rfl

end Grammar

/-! ## Compiling -/

/-- The compilation is what the stages give one after the other: the tokens, the tree with its
marks, the catalog and the diagnostics of both kinds. -/
structure Compiled.Staged (c : Compiled) (source : String) (limit : Int) : Prop where
  tokens_eq : c.tokens = scan source
  syntaxErrors_eq : c.syntaxErrors = (Grammar.parse (scan source) limit).diagnostics
  tree_eq : c.tree = (Check.analyze (Grammar.parse (scan source) limit).tree).tree
  catalog_eq : c.catalog = (Check.analyze (Grammar.parse (scan source) limit).tree).catalog
  semanticErrors_eq :
    c.semanticErrors = (Check.analyze (Grammar.parse (scan source) limit).tree).diagnostics

namespace Compiled

theorem staged_ofText (source : String) (limit : Int) : (ofText source limit).Staged source limit :=
  ⟨rfl, rfl, rfl, rfl, rfl⟩

structure Lost (source : String) (limit : Int) : Prop where
  tokens_eq : (lexemes source).map (fun t => (t.kind, t.lexeme)) =
    (strays source).map fun c => (.error, String.ofList [c])
  syntaxErrors_eq : (Grammar.parse (scan source) limit).diagnostics =
    ((lexemes source).take 1).map (.found Grammar.noStatement.message)
  tree_eq : (Check.analyze (Grammar.parse (scan source) limit).tree).tree.children = []
  catalog_eq : (Check.analyze (Grammar.parse (scan source) limit).tree).catalog = .empty
  semanticErrors_eq : (Check.analyze (Grammar.parse (scan source) limit).tree).diagnostics = []

theorem kind_of_isBlank {source : String} (h : isBlank source = true) :
    ∀ t ∈ lexemes source, t.kind = .error := by
  intro t ht
  have hmem := List.mem_map_of_mem (f := fun t : Token => (t.kind, t.lexeme)) ht
  rw [lexemes_of_isBlank h] at hmem
  obtain ⟨c, -, hc⟩ := List.mem_map.1 hmem
  exact (congrArg Prod.fst hc).symm

theorem lost_of_isBlank {source : String} (h : isBlank source = true) (limit : Int) :
    Lost source limit := by
  have hparse := Grammar.parse_of_errors (kind_of_isBlank h) limit
  refine ⟨lexemes_of_isBlank h, ?_, ?_, ?_, ?_⟩ <;> rw [hparse] <;> rfl

theorem staged_nothing_iff {source : String} (h : isBlank source = true) (limit : Int) :
    nothing.Staged source limit ↔ strays source = [] := by
  rw [← lexemes_eq_nil_iff h]
  constructor
  · intro hstaged
    have hlength := congrArg List.length hstaged.tokens_eq
    simpa [nothing, scan, withEndMark] using hlength
  · intro hnil
    have hparse := Grammar.parse_of_errors (kind_of_isBlank h) limit
    rw [hnil] at hparse
    refine ⟨?_, ?_, ?_, ?_, ?_⟩
    · rw [scan, hnil]
      simp [nothing, scan]
    all_goals
      rw [hparse]
      rfl

end Compiled

/-- A text is compiled to what the stages give, unless it is blank and holds a character that the
scanner does not pass over: that one is compiled to nothing, though the stages make an error token of
each such character and report the first. -/
theorem compile_staged (source : String) (settings : Settings) :
    ∃ c, compile (some source) (.ok settings) = .ok c ∧
      if isBlank source = true ∧ strays source ≠ [] then
        c = .nothing ∧ ¬c.Staged source settings.maxDepth ∧
          Compiled.Lost source settings.maxDepth
      else c.Staged source settings.maxDepth := by
  cases hblank : isBlank source with
  | false =>
    refine ⟨.ofText source settings.maxDepth, ?_, ?_⟩
    · rw [compile, script?, Option.filter_some, hblank]
      rfl
    · simpa using Compiled.staged_ofText source settings.maxDepth
  | true =>
    have hstaged := Compiled.staged_nothing_iff hblank settings.maxDepth
    refine ⟨.nothing, ?_, ?_⟩
    · rw [compile, script?, Option.filter_some, hblank]
      rfl
    · split
      · rename_i hstray
        exact ⟨rfl, mt hstaged.1 hstray.2, Compiled.lost_of_isBlank hblank _⟩
      · rename_i hnone
        exact hstaged.2 (by simpa using hnone)

/-- A no-break space is an error token to the stages, and nothing to a compilation. -/
theorem not_staged_no_break_space :
    let settings : Settings := ⟨"WARNING", 100, "png", by decide⟩
    ∃ c, compile (some "\u00A0") (.ok settings) = .ok c ∧
      ¬c.Staged "\u00A0" settings.maxDepth := by
  refine ⟨.nothing, rfl, fun h => ?_⟩
  have htokens : Compiled.nothing.tokens ≠ scan "\u00A0" := by decide +kernel
  exact htokens h.tokens_eq

end SqlScript
