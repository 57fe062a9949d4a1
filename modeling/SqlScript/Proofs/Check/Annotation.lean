import SqlScript.Proofs.Check.Provenance
import SqlScript.Proofs.Check.Relaid
import SqlScript.Proofs.Grammar.Spelling
import SqlScript.Proofs.Grammar.Unended

/-!
The marks on SELECT, UPDATE and DELETE statements tell the truth, also where a statement breaks off:
its parts say what they are over the columns of its table, and each name that is unknown is reported
once, at its place, while no other name is.
-/

namespace SqlScript.Check
open SqlScript.Text SqlScript.Grammar SqlScript.Phrase SqlScript.Tree

/-! ## Leaves have places of their own -/

theorem nodup_lexical_parse (source : String) (limit : Int) :
    ((parse (scan source) limit).tree.lexical.map place).Nodup := by
  obtain ⟨kept, hkept, hshows⟩ := exists_kept (scan source) limit
  rw [before_scan] at hkept
  rw [map_place_of_shows hshows]
  exact (nodup_places source).sublist (hkept.map _)

section

variable {source : String} {limit : Int}

theorem nodup_flatMap_parse :
    ((parse (scan source) limit).tree.children.flatMap fun s => s.lexical.map place).Nodup := by
  have hnodup := nodup_lexical_parse source limit
  rwa [lexical_parse, List.map_flatMap] at hnodup

theorem eq_of_place_mem {s u : Tree} (hs : s ∈ (parse (scan source) limit).tree.children)
    (hu : u ∈ (parse (scan source) limit).tree.children) {p : Place}
    (hps : p ∈ s.lexical.map place) (hpu : p ∈ u.lexical.map place) : s = u := by
  have hsymm : Std.Symm (Function.onFun List.Disjoint fun s : Tree => s.lexical.map place) :=
    ⟨fun _ _ h _ hu hs => h hs hu⟩
  by_contra hne
  exact (List.nodup_flatMap.1 nodup_flatMap_parse).2.forall hs hu hne hps hpu

end

theorem filter_flatMap_eq {α β γ : Type} [DecidableEq γ] {l : List α} {f : α → List β}
    {keys : α → List γ} (key : β → γ) (hkeys : ∀ a ∈ l, ∀ b ∈ f a, key b ∈ keys a)
    (hnodup : (l.flatMap keys).Nodup) {a : α} (ha : a ∈ l) {k : γ} (hk : k ∈ keys a) :
    (l.flatMap f).filter (key · = k) = (f a).filter (key · = k) := by
  have hnone {l : List α} (hkeys : ∀ a ∈ l, ∀ b ∈ f a, key b ∈ keys a) (h : k ∉ l.flatMap keys) :
      (l.flatMap f).filter (key · = k) = [] := by
    refine List.filter_eq_nil_iff.2 fun b hb hkey => h ?_
    obtain ⟨a, ha, hba⟩ := List.mem_flatMap.1 hb
    rw [← of_decide_eq_true hkey]
    exact List.mem_flatMap.2 ⟨a, ha, hkeys a ha b hba⟩
  -- `k` is a key of one item of the list only, so the others have nothing with that key
  induction l with
  | nil => cases ha
  | cons x l ih =>
    rw [List.forall_mem_cons] at hkeys
    rw [List.flatMap_cons] at hnodup
    have hdisjoint := List.disjoint_of_nodup_append hnodup
    rw [List.flatMap_cons, List.filter_append]
    rcases List.mem_cons.1 ha with rfl | ha
    · rw [hnone hkeys.2 (hdisjoint hk), List.append_nil]
    · have hx : k ∉ [x].flatMap keys := by
        rw [List.flatMap_singleton]
        exact fun hx => hdisjoint hx (List.mem_flatMap.2 ⟨a, ha, hk⟩)
      have hfirst := hnone (List.forall_mem_singleton.2 hkeys.1) hx
      rw [List.flatMap_singleton] at hfirst
      rw [hfirst, List.nil_append]
      exact ih hkeys.2 (List.nodup_append.1 hnodup).2.1 ha

theorem filter_diagnostics {source : String} {limit : Int} {s : Tree}
    (hs : s ∈ queries (parse (scan source) limit).tree) {p : Place}
    (hp : p ∈ s.lexical.map place) :
    (analyze (parse (scan source) limit).tree).diagnostics.filter (·.place = p) =
      (statement (catalog (parse (scan source) limit).tree) s).diagnostics.filter
        (·.place = p) := by
  -- a CREATE statement is another one, and two statements share no place
  have hnone : (created (parse (scan source) limit).tree).2.diagnostics.filter (·.place = p) =
      [] := by
    refine List.filter_eq_nil_iff.2 fun d hd hplace => ?_
    obtain ⟨u, hu, hdu⟩ := created_within d hd
    rw [of_decide_eq_true hplace] at hdu
    obtain ⟨husource, hucreate⟩ := List.mem_filter.1 hu
    obtain ⟨hssource, hsquery⟩ := List.mem_filter.1 hs
    rw [← eq_of_place_mem hssource husource hp hdu] at hucreate
    rw [not_isQuery_of_isCreate hucreate] at hsquery
    cases hsquery
  have hnodup : ((queries (parse (scan source) limit).tree).flatMap fun s =>
      s.lexical.map place).Nodup :=
    nodup_flatMap_parse.sublist (List.filter_sublist.flatMap _)
  rw [(isScript_parse _ _).diagnostics_analyze, List.filter_append, hnone, List.nil_append]
  exact filter_flatMap_eq Diagnostic.place (fun _ hu => queried_within hu) hnodup hs hp

/-! ## Reports at one name -/

section

variable {say : Tree → Diagnostic} {ds : List Diagnostic} {s u : Tree}
  (hsay : ∀ t, (say t).place = t.place) (h : Accounted say ds [s])
  (hnodup : (s.lexical.map place).Nodup) (hu : u ∈ s.lexical)

include hsay h hnodup hu

theorem filter_of_unknown (hunknown : u.label.isUnknown = true) :
    ds.filter (·.place = u.place) = [say u] := by
  have hmem : u ∈ unknowns s := List.mem_filter.2 ⟨(List.mem_filter.1 hu).1, hunknown⟩
  -- mismatches stand at names that are known, so there is none at this place
  have hmissing : (ds.filter fun d => !isMismatch d).filter (·.place = u.place) =
      ds.filter (·.place = u.place) := by
    rw [List.filter_filter]
    refine List.filter_congr fun d hd => ?_
    cases hm : isMismatch d with
    | false => simp
    | true =>
      obtain ⟨v, hv, hplace, hknown⟩ := h.mismatch d hd hm
      rw [List.flatMap_singleton] at hv
      have hne : d.place ≠ u.place := by
        rw [hplace]
        intro heq
        rw [List.inj_on_of_nodup_map hnodup hv hu heq, hunknown] at hknown
        cases hknown
      simp [hne]
  have hplaces : ((unknowns s).flatMap fun v => [v.place]).Nodup := by
    rw [← List.map_eq_flatMap]
    exact hnodup.sublist ((unknowns_sublist s).map _)
  have hunique : ((unknowns s).map say).filter (·.place = u.place) = [say u] := by
    have hone := filter_flatMap_eq (f := fun v => [say v]) Diagnostic.place
      (fun v _ d hd => by rw [List.mem_singleton.1 hd, hsay]; simp) hplaces hmem
      (List.mem_singleton_self u.place)
    rw [List.map_eq_flatMap, hone]
    exact List.filter_cons_of_pos (decide_eq_true (hsay u))
  have hperm := h.missing.filter (·.place = u.place)
  rw [List.flatMap_singleton, hunique, hmissing] at hperm
  exact List.perm_singleton.1 hperm

theorem isMismatch_of_known (hknown : u.label.isUnknown = false) {d : Diagnostic} (hd : d ∈ ds)
    (hplace : d.place = u.place) : isMismatch d = true := by
  by_contra hm
  have hmissing := h.missing.subset (List.mem_filter.2 ⟨hd, by simp [hm]⟩)
  obtain ⟨v, hv, rfl⟩ := List.mem_map.1 hmissing
  rw [List.flatMap_singleton] at hv
  rw [hsay] at hplace
  have hunknown := (List.mem_filter.1 hv).2
  have heq := List.inj_on_of_nodup_map hnodup ((unknowns_sublist s).subset hv) hu hplace
  rw [heq, hknown] at hunknown
  cases hunknown

end

/-! ## Scripts -/

/-- A message that says that a name does not exist. -/
inductive SaysMissing (name : String) : String → Prop where
  | table : SaysMissing name (missingTable name)
  | column (table : Table) : SaysMissing name (missingColumn table name)

/-- Each name in the tree that is marked as unknown is reported as missing, and nothing else is
where it stands; no other name is said to be missing. -/
def NamesReported (ds : List Diagnostic) (t : Tree) : Prop :=
  ∀ u ∈ t.walk, u.kind = .identifier →
    (u.label.dataType = some DataType.unknown → ∃ message, SaysMissing u.text message ∧
      ds.filter (·.place = u.place) = [⟨u.place, message⟩]) ∧
    (u.label.dataType ≠ some DataType.unknown → ∀ d ∈ ds, d.place = u.place →
      ∀ name, ¬SaysMissing name d.message)

theorem not_saysMissing {d : Diagnostic} (h : isMismatch d = true) (name : String) :
    ¬SaysMissing name d.message := by
  intro hsays
  have hmessage : isMismatch ⟨d.place, d.message⟩ = true := h
  generalize d.message = message at hsays hmessage
  cases hsays with
  | table =>
    rw [isMismatch_missingTable] at hmessage
    cases hmessage
  | column table =>
    rw [isMismatch_missingColumn] at hmessage
    cases hmessage

section

variable {tokens : List Token} {limit : Int} {source : String}

theorem map_bare_parse (hne : tokens ≠ []) :
    (parse tokens limit).tree.map bare = (parse tokens limit).tree :=
  map_parse limit (fun _ _ => .of_same rfl rfl fun _ _ => rfl) hne

theorem map_bare_analyze (hne : tokens ≠ []) :
    (analyze (parse tokens limit).tree).tree.map bare = (parse tokens limit).tree :=
  (map_bare_annotate _ _).trans (map_bare_parse hne)

theorem exists_checked (hne : tokens ≠ []) {s : Tree}
    (hs : s ∈ (analyze (parse tokens limit).tree).tree.walk)
    (hkind : s.kind ∈ [.selectStatement, .updateStatement, .deleteStatement]) :
    ∃ st lead parts mark, Reading st ∧ ∃ u ∈ queries (parse tokens limit).tree,
      Stated st lead parts mark u ∧
        s = annotate (statement (catalog (parse tokens limit).tree) u).marks u := by
  have hscript : IsScript (analyze (parse tokens limit).tree).tree := by
    have hkeeps (l : Label) : (bare l).kind = l.kind := rfl
    refine isScript_of_map hkeeps ?_
    rw [map_bare_analyze hne]
    exact isScript_parse tokens limit
  have hisQuery : isQuery s.kind = true := by
    revert hkind
    generalize s.kind = kind
    revert kind
    decide
  have hquery : s ∈ queries (analyze (parse tokens limit).tree).tree :=
    List.mem_filter.2 ⟨hscript.mem_children hs (isStatement_of_isQuery _ hisQuery), hisQuery⟩
  rw [(isScript_parse tokens limit).queries_analyze] at hquery
  obtain ⟨u, hu, rfl⟩ := List.mem_map.1 hquery
  obtain ⟨st, lead, parts, mark, h⟩ := exists_stated (List.mem_filter.1 hu).1
  rw [kind_annotate, kind_stated h] at hkind
  refine ⟨st, lead, parts, mark, ?_, u, hu, h, rfl⟩
  cases st <;> simp_all [Statement.kind, Reading]

theorem exists_find?_identifier {st : Statement} {lead : Token} {parts : List Tree}
    {mark : Option Token} {u : Tree} (h : Stated st lead parts mark u) {marks : List Mark}
    {name : Tree} (hname : name ∈ (annotate marks u).children) (hkind : name.kind = .identifier) :
    ∃ i c, u.find? .identifier = some (i, c) ∧ c.text = name.text := by
  obtain ⟨l, cs⟩ := u
  rw [annotate_node] at hname
  obtain ⟨i, hi, rfl⟩ := List.mem_mapIdx.1 hname
  have hc : cs[i].kind = .identifier := by rwa [kind_annotate] at hkind
  obtain ⟨j, hfind⟩ := h.exists_find?_eq (c := cs[i]) (List.getElem_mem hi) (by rw [hc]; rfl)
  rw [hc] at hfind
  exact ⟨j, cs[i], hfind, (text_annotate ..).symm⟩

theorem names_reported {u : Tree} (hu : u ∈ queries (parse (scan source) limit).tree)
    {P : Tree → Prop} {say : Tree → Diagnostic}
    (hsay : ∀ t, ∃ message, SaysMissing t.text message ∧ say t = ⟨t.place, message⟩)
    (h : Sound say P (statement (catalog (parse (scan source) limit).tree) u) u) :
    let a := analyze (parse (scan source) limit).tree
    NamesReported a.diagnostics (annotate (statement a.catalog u).marks u) := by
  intro a v hv hkind
  have hplace (t : Tree) : (say t).place = t.place := by
    obtain ⟨message, -, heq⟩ := hsay t
    rw [heq]
  have hplaces : (annotate (statement a.catalog u).marks u).lexical.map place =
      u.lexical.map place := places_annotate _ u
  have hnodup : ((annotate (statement a.catalog u).marks u).lexical.map place).Nodup := by
    rw [hplaces]
    exact (List.nodup_flatMap.1 nodup_flatMap_parse).1 u (List.mem_filter.1 hu).1
  have hlexical : v ∈ (annotate (statement a.catalog u).marks u).lexical :=
    List.mem_filter.2 ⟨hv, by rw [hkind]; rfl⟩
  have hfilter := filter_diagnostics hu (hplaces ▸ List.mem_map_of_mem hlexical)
  have hidentifier : (v.label.kind == .identifier) = true := beq_iff_eq.2 hkind
  refine ⟨fun htype => ?_, fun htype d hd hdv word => ?_⟩
  · have hunknown : v.label.isUnknown = true := by
      rw [Label.isUnknown, hidentifier, htype]
      rfl
    obtain ⟨message, hmessage, heq⟩ := hsay v
    refine ⟨message, hmessage, ?_⟩
    rw [← heq, hfilter]
    exact filter_of_unknown hplace h.accounted hnodup hlexical hunknown
  · have hknown : v.label.isUnknown = false := by
      rw [Label.isUnknown, hidentifier, Bool.true_and]
      exact beq_eq_false_iff_ne.2 htype
    have hmem : d ∈ a.diagnostics.filter (·.place = v.place) :=
      List.mem_filter.2 ⟨hd, decide_eq_true hdv⟩
    rw [hfilter] at hmem
    exact not_saysMissing
      (isMismatch_of_known hplace h.accounted hnodup hlexical hknown (List.mem_filter.1 hmem).1 hdv)
      word

end

/-- The marks on the statements of a text tell the truth, whatever else is wrong with it. Of a
SELECT, UPDATE or DELETE statement that names a table of the catalog, all parts say what they are
over the columns of that table; of one whose table is missing, the name of the table alone is
marked. An unknown name is reported once, and nothing else is where it stands; no other name is
said to be missing. -/
theorem analyze_truthful (source : String) (limit : Int) :
    let t := (parse (scan source) limit).tree
    let a := analyze t
    a.tree.map bare = t ∧
      ∀ s ∈ a.tree.walk, s.kind ∈ [.selectStatement, .updateStatement, .deleteStatement] →
        ∀ name ∈ s.children, name.kind = .identifier →
          s.label.Silent ∧ NamesReported a.diagnostics s ∧
          (∀ table, a.catalog.table? name.text = some table →
            ∀ c ∈ s.children, TruePart table c) ∧
          (a.catalog.table? name.text = none → ∀ c ∈ s.children, MissingPart c) := by
  intro t a
  refine ⟨map_bare_analyze (scan_ne_nil source), ?_⟩
  intro s hs hkind name hname hidentifier
  obtain ⟨st, lead, parts, mark, hst, u, hu, h, rfl⟩ := exists_checked (scan_ne_nil source) hs hkind
  obtain ⟨i, c, hfind, htext⟩ := exists_find?_identifier h hname hidentifier
  have hsilent : u.label.Silent := by
    rw [h.tree_eq]
    exact ⟨rfl, rfl⟩
  rw [← htext]
  cases htable : a.catalog.table? c.text with
  | some table =>
    have hknown := typesKnown_of_table? (catalog_hasTypes t) htable
    have hsound := statement_sound_of_some h hst hfind hknown htable
    refine ⟨hsound.marks.1 ▸ hsilent, ?_, fun table' htable' => ?_, nofun⟩
    · exact names_reported hu (fun _ => ⟨_, .column table, rfl⟩) hsound
    · cases htable'
      exact hsound.marks.2
  | none =>
    have hsound := statement_sound_of_none h hst hfind htable
    refine ⟨hsound.marks.1 ▸ hsilent, ?_, nofun, fun _ => hsound.marks.2⟩
    exact names_reported hu (fun _ => ⟨_, .table, rfl⟩) hsound

/-- The third statement breaks off; of its unknown names one is in a condition that no other check
looks at, and one is the target of an assignment, whose value stays unmarked. The last one names no
table of the script. -/
theorem analyze_truthful_broken_update :
    let source := "CREATE TABLE Stock (Price FLOAT, name TEXT); SELECT PRICE FROM stock;
      UPDATE STOCK SET cost = price, Price = 2 WHERE NOT (size OR name = 1) ORDER;
      DELETE FROM sold WHERE price = 1;"
    let a := analyze (parse (scan source) 2).tree
    (∃ s ∈ a.tree.walk, s.kind = .updateStatement ∧
      (∃ table ∈ a.catalog.tables, ∀ c ∈ s.children, TruePart table c) ∧
      ∃ u ∈ s.walk, u.text = "size" ∧ ∃ message, SaysMissing u.text message ∧
        a.diagnostics.filter (·.place = u.place) = [⟨u.place, message⟩]) ∧
    ∃ s ∈ a.tree.walk, s.kind = .deleteStatement ∧ ∀ c ∈ s.children, MissingPart c := by
  intro source a
  obtain ⟨-, htrue⟩ := analyze_truthful source 2
  have hupdate : ∃ s ∈ a.tree.walk, s.kind = .updateStatement ∧
      (∃ name ∈ s.children, name.kind = .identifier ∧
        ∃ table ∈ a.catalog.tables, a.catalog.table? name.text = some table) ∧
      ∃ u ∈ s.walk, u.text = "size" ∧ u.kind = .identifier ∧
        u.label.dataType = some DataType.unknown := by
    decide +kernel
  have hdelete : ∃ s ∈ a.tree.walk, s.kind = .deleteStatement ∧
      ∃ name ∈ s.children, name.kind = .identifier ∧ a.catalog.table? name.text = none := by
    decide +kernel
  constructor
  · obtain ⟨s, hs, hkind, ⟨name, hname, hidentifier, table, hmem, htable⟩, u, hu, htext, hleaf,
      htype⟩ := hupdate
    obtain ⟨-, hreported, hparts, -⟩ := htrue s hs (by simp [hkind]) name hname hidentifier
    exact ⟨s, hs, hkind, ⟨table, hmem, hparts table htable⟩, u, hu, htext,
      (hreported u hu hleaf).1 htype⟩
  · obtain ⟨s, hs, hkind, name, hname, hidentifier, hnone⟩ := hdelete
    obtain ⟨-, -, -, hparts⟩ := htrue s hs (by simp [hkind]) name hname hidentifier
    exact ⟨s, hs, hkind, hparts hnone⟩

end SqlScript.Check
