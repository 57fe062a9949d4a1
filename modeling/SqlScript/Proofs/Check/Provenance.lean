import SqlScript.Proofs.Check.Declaration
import SqlScript.Proofs.Check.Independence
import SqlScript.Proofs.Check.Statement
import SqlScript.Proofs.Check.TrueParts

/-!
Where reports come from: what is reported of a statement stands at one of its own leaves, and every
column of the catalog has a type that columns can have.
-/

namespace SqlScript.Check
open SqlScript.Text SqlScript.Grammar SqlScript.Phrase SqlScript.Tree

/-! ## Places of reports -/

/-- The diagnostics stand at leaves of the tree. -/
def Within (t : Tree) (ds : List Diagnostic) : Prop := ∀ d ∈ ds, d.place ∈ t.lexical.map place

section

variable {t c : Tree} {ds es : List Diagnostic}

theorem Within.nil : Within t [] := nofun

theorem Within.append (h : Within t ds) (h' : Within t es) : Within t (ds ++ es) :=
  List.forall_mem_append.2 ⟨h, h'⟩

theorem Within.child (h : Within c ds) (hc : c ∈ t.children) : Within t ds := fun d hd =>
  List.map_subset place (lexical_subset hc) (h d hd)

theorem Within.leaf (hk : c.kind.isLexical = true) (message : String) :
    Within c [⟨c.place, message⟩] :=
  List.forall_mem_singleton.2 (List.mem_map_of_mem (mem_lexical_self hk))

/-- A report at a child that was looked for. -/
theorem Within.found {kind : Kind} {i : Nat} (h : t.find? kind = some (i, c))
    (hk : kind.isLexical = true) (message : String) : Within t [⟨c.place, message⟩] := by
  obtain ⟨hmem, hkind⟩ := mem_of_find? h
  exact (Within.leaf (by rwa [hkind]) message).child hmem

theorem Accounted.within {say : Tree → Diagnostic} (hsay : ∀ u, (say u).place = u.place)
    {marks : List Mark} (h : Accounted say ds [annotate marks t]) : Within t ds := by
  intro d hd
  rw [← places_annotate marks]
  cases hm : isMismatch d with
  | true =>
    obtain ⟨u, hu, hplace, -⟩ := h.mismatch d hd hm
    rw [hplace]
    exact List.mem_map_of_mem (by simpa using hu)
  | false =>
    have hmissing := h.missing.subset (List.mem_filter.2 ⟨hd, by simp [hm]⟩)
    obtain ⟨u, hu, rfl⟩ := List.mem_map.1 hmissing
    rw [List.flatMap_singleton] at hu
    rw [hsay]
    exact List.mem_map_of_mem ((unknowns_sublist _).subset hu)

end

/-! ## Fields -/

/-- What one field adds: a column of a valid type, or a report at one of its leaves, or nothing. -/
theorem fields_step (table : String) (seen : List String) (i : Nat) (field : Tree)
    (more : List (Nat × Tree)) :
    ∃ seen',
      ((fields table seen ((i, field) :: more)).columns = (fields table seen' more).columns ∨
        ∃ c, c.dataType ∈ DataType.columnTypes ∧
          (fields table seen ((i, field) :: more)).columns =
            c :: (fields table seen' more).columns) ∧
      ∃ own, Within field own ∧ (fields table seen ((i, field) :: more)).findings.diagnostics =
        own ++ (fields table seen' more).findings.diagnostics := by
  generalize hfs : fields table seen ((i, field) :: more) = fs
  rw [fields] at hfs
  split at hfs
  · rename_i j name k type hname htype
    simp only at hfs
    split at hfs
    · subst hfs
      exact ⟨seen, .inl rfl, _, .found htype rfl _, rfl⟩
    · rename_i hvalid
      split at hfs
      · subst hfs
        exact ⟨seen, .inl rfl, _, .found hname rfl _, rfl⟩
      · subst hfs
        have hknown := (isColumnType_upper_iff _).1 (by simpa using hvalid)
        exact ⟨_, .inr ⟨_, hknown, rfl⟩, [], .nil, rfl⟩
  · subst hfs
    exact ⟨seen, .inl rfl, [], .nil, rfl⟩

theorem fields_types (table : String) (seen : List String) (ls : List (Nat × Tree)) :
    ∀ c ∈ (fields table seen ls).columns, c.dataType ∈ DataType.columnTypes := by
  induction ls generalizing seen with
  | nil => exact nofun
  | cons x more ih =>
    obtain ⟨seen', hcolumns | ⟨c, hc, hcolumns⟩, -⟩ := fields_step table seen x.1 x.2 more
    · rw [hcolumns]
      exact ih seen'
    · rw [hcolumns]
      exact List.forall_mem_cons.2 ⟨hc, ih seen'⟩

theorem fields_within (table : String) (seen : List String) {list : Tree} {ls : List (Nat × Tree)}
    (h : ∀ x ∈ ls, x.2 ∈ list.children) :
    Within list (fields table seen ls).findings.diagnostics := by
  induction ls generalizing seen with
  | nil => exact .nil
  | cons x more ih =>
    rw [List.forall_mem_cons] at h
    obtain ⟨seen', -, own, hown, hall⟩ := fields_step table seen x.1 x.2 more
    rw [hall]
    exact (hown.child h.1).append (ih seen' h.2)

/-! ## Types in the catalog -/

theorem unknown_not_mem_columnTypes : DataType.unknown ∉ DataType.columnTypes := by decide

/-- Every column of every table has a type that columns can have. -/
def HasTypes (catalog : Catalog) : Prop :=
  ∀ e ∈ catalog.entries, ∀ c ∈ e.2.columns, c.dataType ∈ DataType.columnTypes

theorem insert_hasTypes {catalog : Catalog} (h : HasTypes catalog) {table : Table}
    (htable : ∀ c ∈ table.columns, c.dataType ∈ DataType.columnTypes) :
    HasTypes (catalog.insert table) := by
  rw [Catalog.insert, Catalog.add]
  split
  · rename_i hadded
    split at hadded
    · cases hadded
    · split at hadded
      · cases hadded
      · cases hadded
        exact List.forall_mem_append.2 ⟨h, List.forall_mem_singleton.2 htable⟩
  · exact h

theorem create_hasTypes {catalog : Catalog} (h : HasTypes catalog) (t : Tree) :
    HasTypes (create catalog t).1 := by
  rw [create]
  split
  · exact h
  · split
    · exact h
    · split
      · exact h
      · simp only
        split
        · exact h
        · exact insert_hasTypes h (fields_types _ _ _)

theorem register_hasTypes (ls : List (Path × Tree)) {catalog : Catalog} (h : HasTypes catalog) :
    HasTypes (register catalog ls).1 := by
  induction ls generalizing catalog with
  | nil => exact h
  | cons x ls ih => exact ih (create_hasTypes h x.2)

theorem catalog_hasTypes (t : Tree) : HasTypes (catalog t) := by
  have hempty : HasTypes Catalog.empty := nofun
  exact register_hasTypes _ hempty

/-- No column of a table that is found has the type that marks unknown names. -/
theorem typesKnown_of_table? {catalog : Catalog} (h : HasTypes catalog) {name : String}
    {table : Table} (htable : catalog.table? name = some table) : TypesKnown table := by
  obtain ⟨before, after, hentries, -⟩ := List.lookup_eq_some_iff.1 htable
  have hmem : (lower name, table) ∈ catalog.entries := by
    rw [hentries]
    simp
  intro c hc hunknown
  have htype := h _ hmem c hc
  rw [hunknown] at htype
  exact unknown_not_mem_columnTypes htype

/-! ## Values -/

theorem place_tree_mem {r : Rank} (e : Expression r) :
    e.tree.place ∈ e.tree.lexical.map place := by
  obtain ⟨u, hu, hplace, -⟩ := exists_leaf_of_expression ⟨"", []⟩ e
  rw [← places_annotate, hplace]
  exact List.mem_map_of_mem hu

theorem value_within {table : Table} (hknown : TypesKnown table) (e : Expression .term)
    (column : Column) : Within e.tree (valueFindings table e.tree column).diagnostics := by
  have hown (message : String) : Within e.tree [⟨e.tree.place, message⟩] :=
    List.forall_mem_singleton.2 (place_tree_mem e)
  have hreports : Within e.tree (reports table e.tree) :=
    (expression_told hknown e).accounted.within fun _ => rfl
  rw [valueFindings, infer_eq_expression]
  split
  · exact hown _
  · rw [Findings.diagnostics_append]
    refine hreports.append ?_
    split
    · exact .nil
    · exact hown _

theorem exists_values {list : Tree} (h : Part list ∨ ∃ u, list = leaf .error u)
    (hkind : list.kind = .valueList) :
    ∃ values : Listed (Expression .term), list =
      Phrase.node .valueList (values.tokens Expression.tokens) (values.trees Expression.tree) := by
  rcases h with hpart | ⟨u, rfl⟩
  · cases hpart with
    | values l => exact ⟨l, rfl⟩
    | leaf hk t =>
      cases hkind
      cases hk
    | _ => cases hkind
  · cases hkind

theorem join_within {α : Type} {t : Tree} {as : List α} {f : α → Findings}
    (h : ∀ a ∈ as, Within t (f a).diagnostics) :
    Within t (Findings.join (as.map f)).diagnostics := by
  intro d hd
  rw [Findings.diagnostics_join, List.flatMap_map] at hd
  obtain ⟨a, ha, hda⟩ := List.mem_flatMap.1 hd
  exact h a ha d hda

/-! ## Statements -/

section

variable {s : Statement} {lead : Token} {parts : List Tree} {mark : Option Token} {t : Tree}
  (h : Stated s lead parts mark t)

include h

theorem create_within (catalog : Catalog) : Within t (create catalog t).2.diagnostics := by
  rw [create]
  split
  · have hlead : leaf .keyword lead ∈ t.children := by
      rw [h.tree_eq]
      exact List.mem_cons_self ..
    have hplace : t.place = (leaf .keyword lead).place := by
      rw [h.tree_eq]
      rfl
    rw [hplace]
    exact (Within.leaf rfl _).child hlead
  · rename_i i name hname
    simp only
    split
    · exact .found hname rfl _
    · split
      · exact .found hname rfl _
      · rename_i j list hlist
        have hfields := fields_within name.text [] fun x (hx : x ∈ list.findAll .fieldDefinition) =>
          (mem_of_mem_findAll hx).1
        exact hfields.child (mem_of_find? hlist).1

theorem insert_within {table : Table} (hknown : TypesKnown table) {i : Nat} {name : Tree}
    (hname : t.find? .identifier = some (i, name)) :
    Within t (insert table name t).diagnostics := by
  rw [insert]
  split
  · exact .nil
  · rename_i j list hlist
    obtain ⟨hmem, hkind⟩ := mem_of_find? hlist
    simp only
    split
    · exact .found hname rfl _
    · refine Within.child (c := list) (join_within fun x hx => ?_) hmem
      obtain ⟨⟨value, k⟩, column⟩ := x
      obtain ⟨values, rfl⟩ := exists_values (h.child list hmem) hkind
      have hvalue : value ∈ (insertedValues _).map (·.1) :=
        List.mem_map_of_mem (List.of_mem_zip hx).1
      rw [map_fst_insertedValues, List.mem_filter] at hvalue
      obtain ⟨hchild, hcomma⟩ := hvalue
      rcases Listed.mem_trees (l := values) hchild with ⟨e, rfl⟩ | ⟨comma, rfl⟩
      · exact (value_within hknown e column).child hchild
      · simp at hcomma

theorem statement_within {catalog : Catalog} (hcatalog : HasTypes catalog) :
    Within t (statement catalog t).diagnostics := by
  cases hname : t.find? .identifier with
  | none =>
    have hnone : statement catalog t = .none := by
      rw [statement, kind_stated h]
      cases s <;> simp only [Statement.kind, withTable, hname]
    rw [hnone]
    exact .nil
  | some x =>
    obtain ⟨i, name⟩ := x
    have hreading (hs : Reading s) : Within t (statement catalog t).diagnostics := by
      cases htable : catalog.table? name.text with
      | none => exact (statement_sound_of_none h hs hname htable).accounted.within fun _ => rfl
      | some table =>
        exact (statement_sound_of_some h hs hname (typesKnown_of_table? hcatalog htable)
          htable).accounted.within fun _ => rfl
    cases s with
    | create =>
      rw [statement, kind_stated h]
      exact .nil
    | insert =>
      rw [statement, kind_stated h]
      simp only [Statement.kind, withTable, hname]
      cases htable : catalog.table? name.text with
      | none => exact .found hname rfl _
      | some table => exact insert_within h (typesKnown_of_table? hcatalog htable) hname
    | select => exact hreading (.inl rfl)
    | update => exact hreading (.inr (.inl rfl))
    | delete => exact hreading (.inr (.inr rfl))

end

/-! ## Passes -/

theorem register_within {ls : List (Path × Tree)}
    (h : ∀ x ∈ ls, ∀ catalog, Within x.2 (create catalog x.2).2.diagnostics) (catalog : Catalog) :
    ∀ d ∈ (register catalog ls).2.diagnostics, ∃ x ∈ ls, d.place ∈ x.2.lexical.map place := by
  induction ls generalizing catalog with
  | nil => exact nofun
  | cons x ls ih =>
    rw [List.forall_mem_cons] at h
    intro d hd
    rw [register_cons, Findings.diagnostics_append] at hd
    rcases List.mem_append.1 hd with hd | hd
    · exact ⟨x, List.mem_cons_self .., h.1 catalog d hd⟩
    · obtain ⟨y, hy, hplace⟩ := ih h.2 _ d hd
      exact ⟨y, List.mem_cons_of_mem _ hy, hplace⟩

section

variable {tokens : List Token} {limit : Int}

/-- What the first pass reports stands at leaves of CREATE statements. -/
theorem created_within :
    ∀ d ∈ (created (parse tokens limit).tree).2.diagnostics,
      ∃ s ∈ creates (parse tokens limit).tree, d.place ∈ s.lexical.map place := by
  have hplaced : ∀ x ∈ placed isCreate 0 (parse tokens limit).tree.children,
      x.2 ∈ creates (parse tokens limit).tree := fun x hx => by
    rw [creates, ← map_snd_placed isCreate 0]
    exact List.mem_map_of_mem hx
  have hown : ∀ x ∈ placed isCreate 0 (parse tokens limit).tree.children,
      ∀ catalog, Within x.2 (create catalog x.2).2.diagnostics := fun x hx catalog => by
    obtain ⟨s, lead, parts, mark, h⟩ := exists_stated (List.mem_filter.1 (hplaced x hx)).1
    exact create_within h catalog
  intro d hd
  rw [created, (isScript_parse tokens limit).locate_eq isStatement_of_isCreate] at hd
  obtain ⟨x, hx, hplace⟩ := register_within hown _ d hd
  exact ⟨x.2, hplaced x hx, hplace⟩

theorem queried_within {s : Tree} (hs : s ∈ queries (parse tokens limit).tree) :
    Within s (statement (catalog (parse tokens limit).tree) s).diagnostics := by
  obtain ⟨st, lead, parts, mark, h⟩ := exists_stated (List.mem_filter.1 hs).1
  exact statement_within h (catalog_hasTypes _)

end

end SqlScript.Check
