import Mathlib.Algebra.Ring.Parity
import Mathlib.Data.List.Basic
import Mathlib.Data.List.Induction
import Mathlib.Data.List.TakeWhile
import SqlScript.Report.Diagram

/-!
Texts of the DOT language read back: characters into symbols, and these into the items of a graph. A
quoted text goes on to the first quote that no odd run of backslashes stands before.
-/

namespace SqlScript.Diagram

/-! ## Quoted texts -/

/-- Whether a text ends in an odd run of backslashes; `odd` says so of what stands before it. -/
def oddAfter (odd : Bool) (cs : List Char) : Bool := cs.foldl (fun odd c => c = '\\' && !odd) odd

/-- What is quoted and what stands behind it, where the opening quote is left out. -/
def closing (odd : Bool) : List Char → Option (List Char × List Char)
  | [] => none
  | c :: cs =>
    if c = '"' && !odd then some ([], cs)
    else (closing (c = '\\' && !odd) cs).map fun x => (c :: x.1, x.2)

theorem closing_cons {odd : Bool} {c : Char} (h : (c = '"' && !odd) = false) (cs : List Char) :
    closing odd (c :: cs) =
      (closing (c = '\\' && !odd) cs).map fun x => (c :: x.1, x.2) := by
  rw [closing, h]
  rfl

theorem oddAfter_concat (odd : Bool) (cs : List Char) (c : Char) :
    oddAfter odd (cs ++ [c]) = (c = '\\' && !oddAfter odd cs) := by
  simp [oddAfter]

theorem oddAfter_iff (cs : List Char) :
    oddAfter false cs = true ↔ Odd (cs.reverse.takeWhile (· = '\\')).length := by
  induction cs using List.reverseRecOn with
  | nil => simp [oddAfter]
  | append_singleton cs c ih =>
    rw [oddAfter_concat, List.reverse_append, List.reverse_singleton, List.singleton_append,
      List.takeWhile_cons]
    by_cases hc : c = '\\'
    · simp [hc, Nat.odd_add_one, ← ih]
    · simp [hc]

theorem oddAfter_cons (odd : Bool) (c : Char) (cs : List Char) :
    oddAfter odd (c :: cs) = oddAfter (c = '\\' && !odd) cs := rfl

/-- A writer that escapes quotes leaves none that closes. -/
theorem closing_escapeQuotes (odd : Bool) (cs rest : List Char) :
    closing odd (escapeQuotes odd cs ++ rest) =
      (closing (oddAfter odd cs) rest).map fun x => (escapeQuotes odd cs ++ x.1, x.2) := by
  fun_induction escapeQuotes odd cs with
  | case1 odd => simp [oddAfter]
  | case2 cs ih =>
    rw [List.cons_append, closing_cons rfl, oddAfter_cons]
    simp [ih, Function.comp_def]
  | case3 odd cs hodd ih =>
    rw [List.cons_append, closing_cons rfl, List.cons_append, closing_cons (by simp [hodd]),
      oddAfter_cons]
    simp [ih, hodd, Function.comp_def]
  | case4 odd cs ih =>
    rw [List.cons_append, closing_cons rfl, oddAfter_cons]
    simp [ih, Function.comp_def]
  | case5 odd c cs hquote hslash ih =>
    have hquote : c ≠ '"' := hquote
    have hslash : c ≠ '\\' := hslash
    rw [List.cons_append, closing_cons (by simp [hquote]), oddAfter_cons]
    simp [ih, hslash, Function.comp_def]

/-- What is written closes at the quote behind it, unless it ends in an odd run of backslashes. -/
theorem closing_eq_iff (cs rest : List Char) :
    closing false (escapeQuotes false cs ++ '"' :: rest) = some (escapeQuotes false cs, rest) ↔
      oddAfter false cs = false := by
  rw [closing_escapeQuotes]
  cases oddAfter false cs with
  | false => simp [closing]
  | true =>
    have hquote : ('"' = '"' && !true) = false := rfl
    simp [closing_cons hquote, Function.comp_def]

/-! ## Symbols -/

inductive Symbol where
  | word (cs : List Char)
  | quoted (cs : List Char)
  | sign (c : Char)
  | arrow
  deriving DecidableEq, Repr

/-- What the next character goes on with. -/
inductive Mode where
  | between
  | word (cs : List Char)
  | quoted (odd : Bool) (cs : List Char)
  | dash
  deriving DecidableEq, Repr

structure Reader where
  /-- The symbols that are complete. -/
  done : List Symbol
  mode : Mode
  deriving DecidableEq, Repr

namespace Reader

def isWordPart (c : Char) : Bool := isBareChar c || c = '.'

def signs : List Char := ['\x7b', '\x7d', '[', ']', '=']

/-- Takes a character that stands between symbols or opens one. -/
def enter (done : List Symbol) (c : Char) : Option Reader :=
  if c ∈ [' ', '\t', '\n'] then some ⟨done, .between⟩
  else if c = '"' then some ⟨done, .quoted false []⟩
  else if isWordPart c then some ⟨done, .word [c]⟩
  else if c ∈ signs then some ⟨done ++ [.sign c], .between⟩
  else if c = '-' then some ⟨done, .dash⟩
  else none

def take : Reader → Char → Option Reader
  | ⟨done, .between⟩, c => enter done c
  | ⟨done, .word cs⟩, c =>
    if isWordPart c then some ⟨done, .word (cs ++ [c])⟩
    else if isBare cs then enter (done ++ [.word cs]) c
    else none
  | ⟨done, .quoted odd cs⟩, c =>
    if c = '"' && !odd then some ⟨done ++ [.quoted cs], .between⟩
    else some ⟨done, .quoted (c = '\\' && !odd) (cs ++ [c])⟩
  | ⟨done, .dash⟩, c => if c = '>' then some ⟨done ++ [.arrow], .between⟩ else none

def takeAll (r : Reader) (cs : List Char) : Option Reader := cs.foldlM take r

variable (done : List Symbol) (r : Reader)

theorem takeAll_cons (c : Char) (cs : List Char) :
    r.takeAll (c :: cs) = (r.take c).bind (takeAll · cs) := rfl

theorem takeAll_append (cs ds : List Char) :
    r.takeAll (cs ++ ds) = (r.takeAll cs).bind (takeAll · ds) := List.foldlM_append

/-- A quoted text is read up to where it closes. -/
theorem takeAll_quoted {odd : Bool} {cs body rest : List Char}
    (h : closing odd cs = some (body, rest)) (read : List Char) :
    takeAll ⟨done, .quoted odd read⟩ cs =
      takeAll ⟨done ++ [.quoted (read ++ body)], .between⟩ rest := by
  induction cs generalizing odd body read with
  | nil => cases h
  | cons c cs ih =>
    rw [takeAll_cons, take]
    rw [closing] at h
    split at h
    · rename_i hclose
      cases h
      rw [if_pos hclose, List.append_nil]
      rfl
    · rename_i hopen
      obtain ⟨⟨body, rest⟩, hlater, heq⟩ := Option.map_eq_some_iff.1 h
      cases heq
      rw [if_neg hopen, Option.bind_some, ih hlater, List.append_assoc, List.singleton_append]

theorem takeAll_word {cs : List Char} (hparts : ∀ c ∈ cs, isWordPart c = true) {read : List Char}
    (hbare : isBare (read ++ cs) = true) {c : Char} (hc : isWordPart c = false)
    (rest : List Char) :
    takeAll ⟨done, .word read⟩ (cs ++ c :: rest) =
      takeAll ⟨done ++ [.word (read ++ cs)], .between⟩ (c :: rest) := by
  induction cs generalizing read with
  | nil =>
    rw [List.append_nil] at hbare ⊢
    rw [List.nil_append, takeAll_cons, take]
    simp only [hc, hbare]
    rfl
  | cons d cs ih =>
    rw [List.forall_mem_cons] at hparts
    have happend : read ++ d :: cs = read ++ [d] ++ cs := by simp
    rw [happend] at hbare ⊢
    rw [List.cons_append, takeAll_cons, take]
    simp only [hparts.1]
    exact ih hparts.2 hbare

theorem enter_of_isWordPart {c : Char} (h : isWordPart c = true) :
    enter done c = some ⟨done, .word [c]⟩ := by
  have hothers : ['"', ' ', '\t', '\n'].all (fun d => !isWordPart d) = true := by decide
  have hne : c ∉ ['"', ' ', '\t', '\n'] := by
    intro hmem
    have hpart := List.all_eq_true.1 hothers c hmem
    rw [h] at hpart
    cases hpart
  rw [List.mem_cons, not_or] at hne
  rw [enter, if_neg hne.2, if_neg hne.1, if_pos h]

theorem takeAll_blank {c : Char} (h : c ∈ [' ', '\t', '\n']) (cs : List Char) :
    takeAll ⟨done, .between⟩ (c :: cs) = takeAll ⟨done, .between⟩ cs := by
  rw [takeAll_cons, take, enter, if_pos h]
  rfl

theorem takeAll_sign {c : Char} (h : c ∈ signs) (cs : List Char) :
    takeAll ⟨done, .between⟩ (c :: cs) = takeAll ⟨done ++ [.sign c], .between⟩ cs := by
  have henter : ∀ c ∈ signs, enter done c = some ⟨done ++ [.sign c], .between⟩ := by
    simp [signs, enter, isWordPart, isBareChar]
  rw [takeAll_cons, take, henter c h]
  rfl

theorem takeAll_arrow (cs : List Char) :
    takeAll ⟨done, .between⟩ ('-' :: '>' :: cs) = takeAll ⟨done ++ [.arrow], .between⟩ cs := rfl

end Reader

/-- An identifier as it is read. -/
def symbol (s : String) : Symbol :=
  if isBare s.toList then .word s.toList else .quoted (escapeQuotes false s.toList)

theorem isWordPart_of_isDigit {c : Char} (h : c.isDigit = true) : Reader.isWordPart c = true := by
  simp [Reader.isWordPart, isBareChar, Char.isAlphanum, h]

theorem isWordPart_of_isPlainNumber {cs : List Char} (h : isPlainNumber cs = true)
    (hsign : cs.head? ≠ some '-') : cs ≠ [] ∧ ∀ c ∈ cs, Reader.isWordPart c = true := by
  have hcs : cs = cs.takeWhile Char.isDigit ++ cs.drop (cs.takeWhile Char.isDigit).length := by
    rw [List.prefix_iff_eq_append.1 (List.takeWhile_prefix _)]
  have hwhole : ∀ c ∈ cs.takeWhile Char.isDigit, Reader.isWordPart c = true :=
    fun c hc => isWordPart_of_isDigit (List.mem_takeWhile_imp hc)
  rw [isPlainNumber, if_neg hsign] at h
  generalize cs.takeWhile Char.isDigit = whole at h hcs hwhole
  split at h
  · rename_i hdrop
    rw [hdrop, List.append_nil] at hcs
    subst hcs
    exact ⟨by simpa using h, hwhole⟩
  · rename_i fraction hdrop
    rw [Bool.and_eq_true] at h
    rw [hdrop] at hcs
    subst hcs
    refine ⟨by simp, fun c hc => ?_⟩
    rcases List.mem_append.1 hc with hc | hc
    · exact hwhole c hc
    · rcases List.mem_cons.1 hc with rfl | hc
      · rfl
      · exact isWordPart_of_isDigit (List.all_eq_true.1 h.1 c hc)
  · cases h

theorem isWordPart_of_isBare {cs : List Char} (h : isBare cs = true) (hsign : cs.head? ≠ some '-') :
    cs ≠ [] ∧ ∀ c ∈ cs, Reader.isWordPart c = true := by
  rw [isBare, Bool.or_eq_true, Bool.and_eq_true] at h
  rcases h with ⟨hstart, hall⟩ | hnumber
  · refine ⟨?_, fun c hc => ?_⟩
    · rintro rfl
      cases hstart
    · rw [Reader.isWordPart, List.all_eq_true.1 hall c hc, Bool.true_or]
  · exact isWordPart_of_isPlainNumber hnumber hsign

theorem oddAfter_of_getLast? {cs : List Char} (h : cs.getLast? ≠ some '\\') :
    oddAfter false cs = false := by
  rcases List.eq_nil_or_concat' cs with rfl | ⟨cs, c, rfl⟩
  · rfl
  · rw [List.getLast?_concat] at h
    rw [oddAfter_concat, decide_eq_false fun hc => h (congrArg some hc), Bool.false_and]

theorem oddAfter_of_isBare {cs : List Char} (h : isBare cs = true) (hsign : cs.head? ≠ some '-') :
    oddAfter false cs = false := by
  refine oddAfter_of_getLast? fun hlast => ?_
  have hpart := (isWordPart_of_isBare h hsign).2 _ (List.mem_of_getLast? hlast)
  cases hpart

/-- An identifier that can be read wherever it is written. -/
structure Readable (s : String) : Prop where
  sign : s.toList.head? ≠ some '-'
  closed : oddAfter false s.toList = false

instance (s : String) : Decidable (Readable s) :=
  decidable_of_iff (s.toList.head? ≠ some '-' ∧ oddAfter false s.toList = false)
    ⟨fun h => ⟨h.1, h.2⟩, fun h => ⟨h.sign, h.closed⟩⟩

theorem takeAll_identifier {s : String} (h : Readable s) (done : List Symbol) {c : Char}
    (hc : Reader.isWordPart c = false) (rest : List Char) :
    Reader.takeAll ⟨done, .between⟩ ((identifier s).toList ++ c :: rest) =
      Reader.takeAll ⟨done ++ [symbol s], .between⟩ (c :: rest) := by
  rw [identifier, symbol]
  split
  · rename_i hbare
    obtain ⟨hne, hparts⟩ := isWordPart_of_isBare hbare h.sign
    obtain ⟨d, ds, hs⟩ := List.exists_cons_of_ne_nil hne
    rw [hs] at hbare hparts ⊢
    rw [List.forall_mem_cons] at hparts
    rw [List.cons_append, Reader.takeAll_cons, Reader.take, Reader.enter_of_isWordPart _ hparts.1]
    exact Reader.takeAll_word done hparts.2 hbare hc rest
  · have hclosing := (closing_eq_iff s.toList (c :: rest)).2 h.closed
    rw [String.toList_ofList, List.append_assoc, List.cons_append, Reader.takeAll_cons]
    exact Reader.takeAll_quoted done hclosing []

/-- An identifier that does not close swallows what follows up to the next quote. -/
theorem takeAll_identifier_open {s : String} (hsign : s.toList.head? ≠ some '-')
    (hodd : oddAfter false s.toList = true) (done : List Symbol)
    {rest body : List Char} {c : Char} {more : List Char}
    (hrest : closing false rest = some (body, c :: more))
    (hc : ∀ done, Reader.enter done c = none) :
    Reader.takeAll ⟨done, .between⟩ ((identifier s).toList ++ rest) = none := by
  have hbare : isBare s.toList = false := by
    by_contra hbare
    rw [oddAfter_of_isBare (Bool.not_eq_false _ ▸ hbare) hsign] at hodd
    cases hodd
  have hquote : closing true ('"' :: rest) = some ('"' :: body, c :: more) := by
    rw [closing_cons rfl]
    exact congrArg (Option.map _) hrest
  have hclosing : closing false (escapeQuotes false s.toList ++ '"' :: rest) =
      some (escapeQuotes false s.toList ++ '"' :: body, c :: more) := by
    rw [closing_escapeQuotes, hodd, hquote]
    rfl
  rw [identifier, hbare, if_neg Bool.false_ne_true, String.toList_ofList, List.append_assoc,
    List.cons_append, Reader.takeAll_cons]
  refine (Reader.takeAll_quoted done hclosing []).trans ?_
  rw [Reader.takeAll_cons, Reader.take, hc]
  rfl

/-! ## Items -/

abbrev Attributes := List (Symbol × Symbol)

inductive Item where
  | setting (name value : Symbol)
  | defaults (target : Symbol) (attributes : Attributes)
  | node (name : Symbol) (attributes : Attributes)
  | edge (source target : Symbol)
  deriving DecidableEq, Repr

def Symbol.isName : Symbol → Bool
  | word _ | quoted _ => true
  | sign _ | arrow => false

/-- The words before which attributes are defaults. -/
def keywords : List Symbol := [.word "graph".toList, .word "node".toList, .word "edge".toList]

def Item.attributed (target : Symbol) (attributes : Attributes) : Item :=
  if target ∈ keywords then .defaults target attributes else .node target attributes

def attributes : List Symbol → Option Attributes
  | [] => some []
  | name :: .sign '=' :: value :: rest =>
    if name.isName && value.isName then (attributes rest).map ((name, value) :: ·) else none
  | _ => none

/-- The items of a graph, up to the brace that closes it. -/
def items : List Symbol → Option (List Item)
  | [.sign '\x7d'] => some []
  | name :: .sign '=' :: value :: rest =>
    if name.isName && value.isName then (items rest).map (.setting name value :: ·) else none
  | source :: .arrow :: target :: rest =>
    if source.isName && target.isName then (items rest).map (.edge source target :: ·) else none
  | target :: .sign '[' :: rest =>
    if target.isName then do
      let own ← attributes (rest.takeWhile (· ≠ .sign ']'))
      let later ← items (rest.dropWhile (· ≠ .sign ']')).tail
      return .attributed target own :: later
    else none
  | _ => none
termination_by symbols => symbols.length
decreasing_by
  · simp only [List.length_cons]
    omega
  · simp only [List.length_cons]
    omega
  · have hdrop := (List.dropWhile_suffix (l := rest) (· ≠ .sign ']')).length_le
    simp only [List.length_cons, List.length_tail]
    omega

def read (source : String) : Option (List Item) := do
  let ⟨.word name :: .sign '\x7b' :: body, .between⟩ ← Reader.takeAll ⟨[], .between⟩ source.toList
    | none
  if name = "digraph".toList then items body else none

theorem isName_symbol (s : String) : (symbol s).isName = true := by
  rw [symbol]
  split <;> rfl

def written (own : Attributes) : List Symbol := own.flatMap fun p => [p.1, .sign '=', p.2]

def Named (own : Attributes) : Prop := ∀ p ∈ own, p.1.isName = true ∧ p.2.isName = true

theorem attributes_written {own : Attributes} (h : Named own) :
    attributes (written own) = some own := by
  induction own with
  | nil => rfl
  | cons p own ih =>
    obtain ⟨name, value⟩ := p
    rw [Named, List.forall_mem_cons] at h
    have hwritten : written ((name, value) :: own) =
        name :: .sign '=' :: value :: written own := rfl
    rw [hwritten, attributes, h.1.1, h.1.2, ih h.2]
    rfl

theorem ne_bracket_of_mem_written {own : Attributes} (h : Named own) :
    ∀ x ∈ written own, decide (x ≠ .sign ']') = true := by
  intro x hx
  obtain ⟨p, hp, hx⟩ := List.mem_flatMap.1 hx
  obtain ⟨hname, hvalue⟩ := h p hp
  simp only [List.mem_cons, List.not_mem_nil, or_false] at hx
  rw [decide_eq_true_eq]
  rcases hx with rfl | rfl | rfl
  · intro hx
    rw [hx] at hname
    cases hname
  · decide
  · intro hx
    rw [hx] at hvalue
    cases hvalue

theorem items_setting {name value : Symbol} (hname : name.isName = true)
    (hvalue : value.isName = true) (rest : List Symbol) :
    items (name :: .sign '=' :: value :: rest) = (items rest).map (.setting name value :: ·) := by
  rw [items, hname, hvalue]
  rfl

theorem items_edge {source target : Symbol} (hsource : source.isName = true)
    (htarget : target.isName = true) (rest : List Symbol) :
    items (source :: .arrow :: target :: rest) = (items rest).map (.edge source target :: ·) := by
  rw [items, hsource, htarget]
  rfl

theorem items_attributed {target : Symbol} (htarget : target.isName = true) {own : Attributes}
    (hown : Named own) (rest : List Symbol) :
    items (target :: .sign '[' :: (written own ++ .sign ']' :: rest)) =
      (items rest).map (.attributed target own :: ·) := by
  have hbefore := ne_bracket_of_mem_written hown
  rw [items, if_pos htarget, List.takeWhile_append_of_pos hbefore,
    List.dropWhile_append_of_pos hbefore, List.takeWhile_cons_of_neg (by simp),
    List.dropWhile_cons_of_neg (by simp), List.append_nil, attributes_written hown, List.tail_cons]
  cases items rest <;> rfl

end SqlScript.Diagram
