import SqlScript.Proofs.Report.Diagram
import SqlScript.Proofs.Report.Dot

/-!
The source of a diagram read back. Each of its lines is read as one item, as long as the labels in it
close; a label that does not close takes the rest of the text with it.
-/

namespace SqlScript.Diagram
open SqlScript.Tree

/-! ## Names and values -/

theorem isBare_nodeName (n : Nat) : isBare (nodeName n).toList = true := by
  have hdigits : (Nat.toDigits 10 n).all isBareChar = true := by
    refine List.all_eq_true.2 fun c hc => ?_
    have hdigit := Nat.isDigit_of_mem_toDigits (by decide) (by decide) hc
    simp [isBareChar, Char.isAlphanum, hdigit]
  have hword : "node".toList.head?.any isBareStart && "node".toList.all isBareChar := by decide
  rw [isBare, toList_nodeName, List.head?_append_of_ne_nil _ (by decide), List.all_append, hdigits,
    Bool.and_true, Bool.or_eq_true]
  exact .inl hword

theorem identifier_nodeName (n : Nat) : identifier (nodeName n) = nodeName n :=
  if_pos (isBare_nodeName n)

theorem symbol_nodeName (n : Nat) : symbol (nodeName n) = .word (nodeName n).toList :=
  if_pos (isBare_nodeName n)

theorem readable_nodeName (n : Nat) : Readable (nodeName n) := by
  have hsign : (nodeName n).toList.head? ≠ some '-' := by
    rw [toList_nodeName, List.head?_append_of_ne_nil _ (by decide)]
    decide
  exact ⟨hsign, oddAfter_of_isBare (isBare_nodeName n) hsign⟩

/-- A colour opens with a character that no symbol opens with. -/
def IsColour (c : String) : Prop := Readable c ∧ c.toList.head? = some '#'

instance : DecidablePred IsColour := fun _ => inferInstanceAs (Decidable (_ ∧ _))

theorem isColour_style (l : Label) :
    IsColour (style l).border ∧ IsColour (style l).fill ∧ IsColour (style l).font := by
  rw [style]
  split <;> try split
  all_goals decide

theorem exists_identifier_colour {c : String} (h : IsColour c) :
    ∃ more, (identifier c).toList = '"' :: '#' :: more := by
  obtain ⟨cs, hc⟩ := List.head?_eq_some_iff.1 h.2
  have hbare : isBare ('#' :: cs) = false := rfl
  rw [identifier, hc, hbare, if_neg Bool.false_ne_true, String.toList_ofList]
  exact ⟨escapeQuotes false cs ++ ['"'], rfl⟩

/-! ## Attributes -/

def pairText (p : String × String) : List Char :=
  (identifier p.1).toList ++ '=' :: (identifier p.2).toList

def symbols (ps : List (String × String)) : Attributes := ps.map fun p => (symbol p.1, symbol p.2)

theorem named_symbols (ps : List (String × String)) : Named (symbols ps) := by
  intro x hx
  obtain ⟨p, -, rfl⟩ := List.mem_map.1 hx
  exact ⟨isName_symbol p.1, isName_symbol p.2⟩

theorem takeAll_key {p : String × String} (h : Readable p.1) (done : List Symbol)
    (rest : List Char) :
    Reader.takeAll ⟨done, .between⟩ (pairText p ++ rest) =
      Reader.takeAll ⟨done ++ [symbol p.1, .sign '='], .between⟩
        ((identifier p.2).toList ++ rest) := by
  rw [pairText, List.append_assoc, List.cons_append, takeAll_identifier h done rfl,
    Reader.takeAll_sign _ (by decide), List.append_assoc, List.singleton_append]

section

variable (done : List Symbol) {c : Char} (hc : Reader.isWordPart c = false) (rest : List Char)
include hc

theorem takeAll_pair {p : String × String} (h : Readable p.1 ∧ Readable p.2) :
    Reader.takeAll ⟨done, .between⟩ (pairText p ++ c :: rest) =
      Reader.takeAll ⟨done ++ [symbol p.1, .sign '=', symbol p.2], .between⟩ (c :: rest) := by
  rw [takeAll_key h.1, takeAll_identifier h.2 _ hc, List.append_assoc]
  rfl

/-- Pairs with a space before each are read as attributes. -/
theorem takeAll_pairs {ps : List (String × String)}
    (h : ∀ p ∈ ps, Readable p.1 ∧ Readable p.2) :
    Reader.takeAll ⟨done, .between⟩ (ps.flatMap (fun p => ' ' :: pairText p) ++ c :: rest) =
      Reader.takeAll ⟨done ++ written (symbols ps), .between⟩ (c :: rest) := by
  induction ps generalizing done with
  | nil => simp [symbols, written]
  | cons p ps ih =>
    rw [List.forall_mem_cons] at h
    obtain ⟨d, more, hmore, hd⟩ : ∃ d more,
        ps.flatMap (fun p => ' ' :: pairText p) ++ c :: rest = d :: more ∧
          Reader.isWordPart d = false := by
      cases ps with
      | nil => exact ⟨c, rest, rfl, hc⟩
      | cons q ps => exact ⟨' ', _, rfl, rfl⟩
    have hwritten : written (symbols (p :: ps)) =
        [symbol p.1, .sign '=', symbol p.2] ++ written (symbols ps) := rfl
    rw [List.flatMap_cons, List.append_assoc, List.cons_append,
      Reader.takeAll_blank _ (by decide), hmore,
      takeAll_pair done hd more h.1, ← hmore, ih _ h.2, hwritten, List.append_assoc]

end

/-! ## Statements -/

/-- The attributes of a node. -/
def nodeAttributes (l : Label) : List (String × String) :=
  [("label", nodeLabel l), ("color", (style l).border), ("fillcolor", (style l).fill),
    ("fontcolor", (style l).font), ("penwidth", "2")]

namespace Statement

/-- No label in the statement takes what stands behind it with it. -/
def Closed : Statement → Prop
  | node _ l => oddAfter false (nodeLabel l).toList = false
  | edge _ _ => True

def item : Statement → Item
  | node id l => .node (symbol (nodeName id)) (symbols (nodeAttributes l))
  | edge source target => .edge (symbol (nodeName source)) (symbol (nodeName target))

/-- The symbols of a statement. -/
def symbols : Statement → List Symbol
  | node id l =>
    symbol (nodeName id) :: .sign '[' :: (written (Diagram.symbols (nodeAttributes l)) ++
      [.sign ']'])
  | edge source target => [symbol (nodeName source), .arrow, symbol (nodeName target)]

end Statement

theorem toList_text_node (id : Nat) (l : Label) (rest : List Char) :
    (Statement.node id l).text.toList ++ rest =
      (identifier (nodeName id)).toList ++ ' ' :: '[' :: (pairText ("label", nodeLabel l) ++
        ((nodeAttributes l).tail.flatMap (fun p => ' ' :: pairText p) ++ ']' :: rest)) := by
  have hkeys : ∀ key ∈ ["label", "color", "fillcolor", "fontcolor", "penwidth", "2"],
      identifier key = key := by decide
  simp only [List.forall_mem_cons] at hkeys
  simp [Statement.text, nodeAttributes, pairText, colour, identifier_nodeName, hkeys]

theorem toList_text_edge (source target : Nat) (rest : List Char) :
    (Statement.edge source target).text.toList ++ rest =
      (identifier (nodeName source)).toList ++ ' ' :: '-' :: '>' :: ' ' ::
        ((identifier (nodeName target)).toList ++ rest) := by
  simp [Statement.text, identifier_nodeName]

theorem head?_nodeLabel (l : Label) : (nodeLabel l).toList.head? ≠ some '-' := by
  have hname : l.kind.name.toList ≠ [] ∧ l.kind.name.toList.head? ≠ some '-' := by
    cases l.kind <;> decide
  rw [nodeLabel, Label.caption]
  split <;> split <;> simp [List.head?_append_of_ne_nil _ hname.1, hname.2]

theorem readable_nodeAttributes {l : Label} (h : oddAfter false (nodeLabel l).toList = false) :
    ∀ p ∈ nodeAttributes l, Readable p.1 ∧ Readable p.2 := by
  obtain ⟨hborder, hfill, hfont⟩ := isColour_style l
  simp only [nodeAttributes, List.forall_mem_cons]
  exact ⟨⟨by decide, head?_nodeLabel l, h⟩, ⟨by decide, hborder.1⟩, ⟨by decide, hfill.1⟩,
    ⟨by decide, hfont.1⟩, by decide⟩

section

variable (done : List Symbol) (rest : List Char)

theorem takeAll_node {l : Label} (h : oddAfter false (nodeLabel l).toList = false) (id : Nat) :
    Reader.takeAll ⟨done, .between⟩ ((Statement.node id l).text.toList ++ '\n' :: rest) =
      Reader.takeAll ⟨done ++ (Statement.node id l).symbols, .between⟩ ('\n' :: rest) := by
  have hpairs : ' ' :: (pairText ("label", nodeLabel l) ++
      ((nodeAttributes l).tail.flatMap (fun p => ' ' :: pairText p) ++ ']' :: '\n' :: rest)) =
      (nodeAttributes l).flatMap (fun p => ' ' :: pairText p) ++ ']' :: '\n' :: rest := by
    simp [nodeAttributes]
  rw [toList_text_node, takeAll_identifier (readable_nodeName id) done rfl,
    Reader.takeAll_blank _ (by decide), Reader.takeAll_sign _ (by decide),
    ← Reader.takeAll_blank _ (c := ' ') (by decide), hpairs,
    takeAll_pairs _ rfl _ (readable_nodeAttributes h), Reader.takeAll_sign _ (by decide)]
  simp [Statement.symbols]

theorem takeAll_edge (source target : Nat) :
    Reader.takeAll ⟨done, .between⟩ ((Statement.edge source target).text.toList ++ '\n' :: rest) =
      Reader.takeAll ⟨done ++ (Statement.edge source target).symbols, .between⟩
        ('\n' :: rest) := by
  rw [toList_text_edge, takeAll_identifier (readable_nodeName source) done rfl,
    Reader.takeAll_blank _ (by decide), Reader.takeAll_arrow, Reader.takeAll_blank _ (by decide),
    takeAll_identifier (readable_nodeName target) _ rfl]
  simp [Statement.symbols]

theorem takeAll_statement {s : Statement} (h : s.Closed) :
    Reader.takeAll ⟨done, .between⟩ (s.text.toList ++ '\n' :: rest) =
      Reader.takeAll ⟨done ++ s.symbols, .between⟩ ('\n' :: rest) := by
  cases s with
  | node id l => exact takeAll_node done rest h id
  | edge source target => exact takeAll_edge done rest source target

/-- The quote that opens the colour behind an open label closes that label. -/
theorem takeAll_statement_open {s : Statement} (h : ¬ s.Closed) :
    Reader.takeAll ⟨done, .between⟩ (s.text.toList ++ rest) = none := by
  cases s with
  | edge source target => exact absurd trivial h
  | node id l =>
    have hodd : oddAfter false (nodeLabel l).toList = true := Bool.not_eq_false _ ▸ h
    obtain ⟨colour, hcolour⟩ := exists_identifier_colour (isColour_style l).1
    have hcolor : (identifier "color").toList = "color".toList := by decide
    have hreadable : Readable "label" := by decide
    rw [toList_text_node, takeAll_identifier (readable_nodeName id) done rfl,
      Reader.takeAll_blank _ (by decide), Reader.takeAll_sign _ (by decide),
      takeAll_key hreadable, nodeAttributes, List.tail_cons, List.flatMap_cons, pairText, hcolor,
      hcolour]
    exact takeAll_identifier_open (head?_nodeLabel l) hodd _ rfl fun _ => rfl

end

/-! ## Graphs -/

/-- A line of the body. -/
def lineText (line : String) : List Char := '\t' :: (line.toList ++ ['\n'])

theorem toList_source (g : Graph) :
    g.source.toList = "digraph \x7b\n".toList ++ ((preamble g.nodes).flatMap lineText ++
      (g.statements.flatMap (fun s => lineText s.text) ++ ['\x7d', '\n'])) := by
  have hline : lineText = fun line => '\t' :: (line.toList ++ ['\n']) := rfl
  simp [Graph.source, hline, Function.comp_def, List.flatMap_map]

section

variable {ss : List Statement} (done : List Symbol) (rest : List Char)

theorem takeAll_lines (h : ∀ s ∈ ss, s.Closed) :
    Reader.takeAll ⟨done, .between⟩ (ss.flatMap (fun s => lineText s.text) ++ rest) =
      Reader.takeAll ⟨done ++ ss.flatMap Statement.symbols, .between⟩ rest := by
  induction ss generalizing done with
  | nil => simp
  | cons s ss ih =>
    rw [List.forall_mem_cons] at h
    rw [List.flatMap_cons, List.append_assoc, lineText, List.cons_append, List.append_assoc,
      List.singleton_append, Reader.takeAll_blank _ (by decide), takeAll_statement _ _ h.1,
      Reader.takeAll_blank _ (by decide), ih _ h.2, List.flatMap_cons, List.append_assoc]

theorem takeAll_lines_open (h : ∃ s ∈ ss, ¬ s.Closed) :
    Reader.takeAll ⟨done, .between⟩ (ss.flatMap (fun s => lineText s.text) ++ rest) = none := by
  induction ss generalizing done with
  | nil => simp at h
  | cons s ss ih =>
    rw [List.exists_mem_cons_iff] at h
    rw [List.flatMap_cons, List.append_assoc, lineText, List.cons_append, List.append_assoc,
      Reader.takeAll_blank _ (by decide)]
    by_cases hs : s.Closed
    · rw [List.singleton_append, takeAll_statement _ _ hs, Reader.takeAll_blank _ (by decide)]
      exact ih _ (h.resolve_left (not_not_intro hs))
    · exact takeAll_statement_open done _ hs

end

def settings (nodes : Nat) : Attributes :=
  symbols [("rankdir", "TB"), ("nodesep", (spacing nodes).1), ("ranksep", (spacing nodes).2)]

def nodeDefaults : Attributes :=
  symbols [("fontname", "Arial"), ("fontsize", "14"), ("shape", "box"), ("style", "filled,rounded")]

def edgeDefaults : Attributes :=
  symbols [("arrowsize", "1.2"), ("color", "#4A5568"), ("penwidth", "2")]

/-- What the body of a graph opens with. -/
def opening (nodes : Nat) : List Symbol :=
  written (settings nodes) ++ symbol "node" :: .sign '[' :: (written nodeDefaults ++
    .sign ']' :: symbol "edge" :: .sign '[' :: (written edgeDefaults ++ [.sign ']']))

theorem takeAll_opening (nodes : Nat) :
    Reader.takeAll ⟨[], .between⟩ ("digraph \x7b\n".toList ++ (preamble nodes).flatMap lineText) =
      some ⟨symbol "digraph" :: .sign '\x7b' :: opening nodes, .between⟩ := by
  rw [preamble, opening, settings, spacing]
  split
  · decide +kernel
  · split <;> decide +kernel

theorem takeAll_source {g : Graph} (h : ∀ s ∈ g.statements, s.Closed) :
    Reader.takeAll ⟨[], .between⟩ g.source.toList =
      some ⟨symbol "digraph" :: .sign '\x7b' ::
        (opening g.nodes ++ (g.statements.flatMap Statement.symbols ++ [.sign '\x7d'])),
        .between⟩ := by
  rw [toList_source, ← List.append_assoc, Reader.takeAll_append, takeAll_opening, Option.bind_some,
    takeAll_lines _ _ h, Reader.takeAll_sign _ (by decide), Reader.takeAll_blank _ (by decide),
    List.append_assoc]
  rfl

theorem takeAll_source_open {g : Graph} (h : ∃ s ∈ g.statements, ¬ s.Closed) :
    Reader.takeAll ⟨[], .between⟩ g.source.toList = none := by
  rw [toList_source, ← List.append_assoc, Reader.takeAll_append, takeAll_opening, Option.bind_some,
    takeAll_lines_open _ _ h]

/-! ## Items of a diagram -/

theorem items_settings {own : Attributes} (h : Named own) (rest : List Symbol) :
    items (written own ++ rest) = (items rest).map (own.map (fun p => .setting p.1 p.2) ++ ·) := by
  induction own with
  | nil => simp [written]
  | cons p own ih =>
    rw [Named, List.forall_mem_cons] at h
    have hwritten : written (p :: own) ++ rest = p.1 :: .sign '=' :: p.2 :: (written own ++ rest) :=
      rfl
    rw [hwritten, items_setting h.1.1 h.1.2, ih h.2, Option.map_map]
    rfl

theorem attributed_nodeName (n : Nat) (own : Attributes) :
    Item.attributed (symbol (nodeName n)) own = .node (symbol (nodeName n)) own := by
  refine if_neg ?_
  rw [symbol_nodeName, toList_nodeName]
  simp [keywords]

theorem items_statement (s : Statement) (rest : List Symbol) :
    items (s.symbols ++ rest) = (items rest).map (s.item :: ·) := by
  cases s with
  | node id l =>
    have hsymbols : (Statement.node id l).symbols ++ rest = symbol (nodeName id) :: .sign '[' ::
        (written (symbols (nodeAttributes l)) ++ .sign ']' :: rest) := by
      simp [Statement.symbols]
    rw [hsymbols, items_attributed (isName_symbol _) (named_symbols _), attributed_nodeName]
    rfl
  | edge source target => exact items_edge (isName_symbol _) (isName_symbol _) rest

theorem items_statements (ss : List Statement) :
    items (ss.flatMap Statement.symbols ++ [.sign '\x7d']) = some (ss.map Statement.item) := by
  induction ss with
  | nil => simp [items]
  | cons s ss ih =>
    rw [List.flatMap_cons, List.append_assoc, items_statement, ih]
    rfl

/-- What a graph says before its statements. -/
def openingItems (nodes : Nat) : List Item :=
  (settings nodes).map (fun p => .setting p.1 p.2) ++
    [.defaults (symbol "node") nodeDefaults, .defaults (symbol "edge") edgeDefaults]

theorem items_opening (nodes : Nat) (rest : List Symbol) :
    items (opening nodes ++ rest) = (items rest).map (openingItems nodes ++ ·) := by
  have hsettings : Named (settings nodes) := named_symbols _
  have hnode : Named nodeDefaults := named_symbols _
  have hedge : Named edgeDefaults := named_symbols _
  have hopening : opening nodes ++ rest = written (settings nodes) ++
      symbol "node" :: .sign '[' :: (written nodeDefaults ++ .sign ']' ::
        symbol "edge" :: .sign '[' :: (written edgeDefaults ++ .sign ']' :: rest)) := by
    simp [opening]
  have hdefaults : Item.attributed (symbol "node") nodeDefaults =
      .defaults (symbol "node") nodeDefaults := by decide
  have hdefaults' : Item.attributed (symbol "edge") edgeDefaults =
      .defaults (symbol "edge") edgeDefaults := by decide
  rw [hopening, items_settings hsettings, items_attributed (isName_symbol _) hnode,
    items_attributed (isName_symbol _) hedge, hdefaults, hdefaults', Option.map_map,
    Option.map_map]
  simp [openingItems, Function.comp_def]

/-- Where all labels close, each statement is read as what it says. -/
theorem read_source {g : Graph} (h : ∀ s ∈ g.statements, s.Closed) :
    read g.source = some (openingItems g.nodes ++ g.statements.map Statement.item) := by
  have hitems := items_opening g.nodes (g.statements.flatMap Statement.symbols ++ [.sign '\x7d'])
  rw [items_statements, Option.map_some] at hitems
  rw [read, takeAll_source h]
  exact hitems

/-- Where one does not close, nothing can be read. -/
theorem read_source_open {g : Graph} (h : ∃ s ∈ g.statements, ¬ s.Closed) :
    read g.source = none := by
  rw [read, takeAll_source_open h]
  rfl

/-! ## Nodes -/

/-- The name and the label that an item gives to a node. -/
def Item.node? : Item → Option (Symbol × Option Symbol)
  | node name own => some (name, own.lookup (symbol "label"))
  | _ => none

theorem node?_item (s : Statement) :
    s.item.node? = s.node?.map fun x => (symbol (nodeName x.1), some (symbol (nodeLabel x.2))) := by
  cases s with
  | node id l => simp [Statement.item, Item.node?, symbols, nodeAttributes, Statement.node?]
  | edge source target => rfl

theorem closed_iff (s : Statement) :
    s.Closed ↔ ∀ x ∈ s.node?, oddAfter false (nodeLabel x.2).toList = false := by
  cases s <;> simp [Statement.Closed, Statement.node?]

theorem closed_statements_iff (t : Tree) :
    (∀ s ∈ statements t, s.Closed) ↔
      ∀ u ∈ t.walk, oddAfter false (nodeLabel u.label).toList = false := by
  have hnodes : (∀ s ∈ statements t, s.Closed) ↔
      ∀ x ∈ (statements t).filterMap Statement.node?,
        oddAfter false (nodeLabel x.2).toList = false := by
    refine ⟨fun h x hx => ?_, fun h s hs => (closed_iff s).2 fun x hx => ?_⟩
    · obtain ⟨s, hs, hsx⟩ := List.mem_filterMap.1 hx
      exact (closed_iff s).1 (h s hs) x hsx
    · exact h x (List.mem_filterMap.2 ⟨s, hs, hx⟩)
  rw [hnodes, filterMap_node?_statements, List.forall_mem_map]
  conv => rhs; rw [← List.zipIdx_map_fst 0 t.walk, List.forall_mem_map]

theorem filterMap_node?_items (nodes : Nat) (t : Tree) :
    (openingItems nodes ++ (statements t).map Statement.item).filterMap Item.node? =
      t.walk.zipIdx.map fun x =>
        (symbol (nodeName x.2), some (symbol (nodeLabel x.1.label))) := by
  have hnone : (openingItems nodes).filterMap Item.node? = [] := by
    simp [openingItems, List.filterMap_map, Function.comp_def, Item.node?]
  rw [List.filterMap_append, hnone, List.nil_append, List.filterMap_map,
    funext (f := Item.node? ∘ Statement.item) node?_item, ← List.map_filterMap,
    filterMap_node?_statements, List.map_map]
  rfl

/-- No diagram with a label that does not close can be read. -/
theorem read_drawn_open (format : String) {t : Tree}
    (h : ¬ ∀ u ∈ t.walk, oddAfter false (nodeLabel u.label).toList = false) :
    read (drawn format t).source = none := by
  rw [← closed_statements_iff] at h
  exact read_source_open (by simpa [drawn] using h)

/-- A diagram is read back with one node for each node of the tree, in pre-order, if all labels in it
close. -/
theorem read_drawn (format : String) (t : Tree) :
    (∃ items, read (drawn format t).source = some items ∧
        items.filterMap Item.node? =
          t.walk.zipIdx.map fun x => (symbol (nodeName x.2), some (symbol (nodeLabel x.1.label)))) ↔
      ∀ u ∈ t.walk, oddAfter false (nodeLabel u.label).toList = false := by
  constructor
  · rintro ⟨items, hread, -⟩
    by_contra hopen
    rw [read_drawn_open format hopen] at hread
    cases hread
  · intro h
    exact ⟨_, read_source ((closed_statements_iff t).2 h), filterMap_node?_items _ t⟩

end SqlScript.Diagram
