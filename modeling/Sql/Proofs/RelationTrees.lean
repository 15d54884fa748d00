import Sql.Proofs.QueryTrees

/-! Relations built from tables: the parser gives back the list of sources that was printed. -/
namespace Sql

section

variable (Named Listed : Ident → Prop)

/-- A condition is a column or a truth value. -/
def Criteria.IsPlain : Criteria → Prop
  | .condition e => (∃ n : Name, (∀ x ∈ n.parts, Named x) ∧ e = .column n) ∨ ∃ b, e = .boolean b
  | .columns xs => ∀ x ∈ xs, Named x
  | .natural | .absent => True

/-- Quoted tables and lists of columns, under aliases, samples and joins, with some names of aliases
and columns, and some names in the lists of columns behind aliases. -/
inductive Relation.IsOverTables : Relation → Prop
  | table {n : Name} : n.IsQuoted → IsOverTables (.table n none)
  | renamed {r : Relation} {x : Ident} {columns : List Ident} : IsOverTables r → Named x →
      (∀ y ∈ columns, Listed y) → IsOverTables (.renamed r x columns)
  | join {l r : Relation} {kind : JoinKind} {criteria : Criteria} : IsOverTables l →
      IsOverTables r → criteria.flaw? kind = none → criteria.IsPlain Named →
      IsOverTables (.join l r kind criteria)
  | sample {r : Relation} {method : SampleMethod} {percentage : Int64} : IsOverTables r →
      0 ≤ percentage → IsOverTables (.sample r method (.integer percentage))
  | unnest {names : List Name} {ordinality : Bool} : names ≠ [] →
      (∀ n ∈ names, ∀ x ∈ n.parts, Named x) →
      IsOverTables (.unnest (names.map .column) ordinality)

end

/-! ### Each part is read back where it stands -/

theorem Expr.isQuotedTree_integer {n : Int64} (h : 0 ≤ n) : (integer n).IsQuotedTree := .literal h

theorem Criteria.IsPlain.fixed {c : Criteria} (h : c.IsPlain Ident.IsQuoted) :
    ∀ k ∈ c.nodes, k.Fixed := by
  cases c with
  | condition e =>
    have he : ∀ k ∈ e.nodes, k.Fixed := by
      rcases h with ⟨n, hn, rfl⟩ | ⟨b, rfl⟩
      · exact Expr.column_fixed hn
      · exact Expr.IsQuotedTree.fixed (.literal (v := .boolean b) trivial)
    simp only [Criteria.nodes, List.forall_mem_cons]
    exact ⟨⟨⟨trivial, trivial, rfl⟩, rfl, rfl⟩, he⟩
  | columns xs =>
    simp only [Criteria.nodes, List.forall_mem_singleton]
    exact ⟨⟨fun x hx => (h x hx).2, fun x hx => (h x hx).1, rfl⟩, rfl, rfl⟩
  | natural | absent =>
    simp only [Criteria.nodes, List.forall_mem_singleton]
    exact ⟨⟨trivial, trivial, rfl⟩, rfl, rfl⟩

theorem Relation.IsOverTables.fixed {r : Relation}
    (h : r.IsOverTables Ident.IsQuoted Ident.IsQuoted) : ∀ k ∈ r.nodes, k.Fixed := by
  induction h with
  | @table n hn =>
    have hn : n.IsQuoted := hn
    simp only [nodes, List.forall_mem_singleton]
    exact ⟨⟨⟨hn.named, rfl⟩, hn.delimited, rfl⟩, rfl, rfl⟩
  | renamed _ hx hcs ih =>
    simp only [nodes, List.forall_mem_cons]
    exact ⟨⟨⟨⟨hx.2, fun y hy => (hcs y hy).2⟩, ⟨hx.1, fun y hy => (hcs y hy).1⟩, rfl⟩, rfl, rfl⟩,
      ih⟩
  | join _ _ hflaw hplain ihl ihr =>
    simp only [nodes, List.forall_mem_cons, List.forall_mem_append]
    exact ⟨⟨⟨hflaw, trivial, rfl⟩, rfl, rfl⟩, ihl, ihr, hplain.fixed⟩
  | sample _ hp ih =>
    simp only [nodes, List.forall_mem_cons, List.forall_mem_append]
    exact ⟨⟨⟨trivial, trivial, rfl⟩, rfl, rfl⟩, ih, (Expr.isQuotedTree_integer hp).fixed⟩
  | unnest hne hnames =>
    have hargs : ∀ e ∈ List.map Expr.column _, ∀ k ∈ e.nodes, k.Fixed :=
      List.forall_mem_map.2 fun n hn => Expr.column_fixed (hnames n hn)
    simp only [nodes, List.forall_mem_cons, Expr.forall_nodesAll]
    exact ⟨⟨⟨by simpa [Node.Sound, Relation.Sound] using hne, trivial, rfl⟩, rfl, rfl⟩, hargs⟩

/-! ### The normal form of a relation -/

theorem Expr.normals_columns {names : List Name} (h : ∀ n ∈ names, n.IsQuoted) :
    normals (names.map .column) = names.map .column := by
  refine normals_self (List.forall_mem_map.2 fun n hn => ?_)
  exact IsQuotedTree.normal_eq (.column (h n hn))

theorem Expr.sameAll_columns (names : List Name) :
    sameAll (names.map .column) (names.map .column) = true := by
  induction names with
  | nil => rfl
  | cons n names ih => simp [sameAll, same, Name.same, sameList_refl, ih]

/-- Conditions and columns that are quoted stay as they are. -/
theorem Criteria.IsPlain.normal_eq {c : Criteria} (h : c.IsPlain Ident.IsQuoted) :
    c.normal = c := by
  cases c with
  | condition e =>
    rcases h with ⟨n, hn, rfl⟩ | ⟨b, rfl⟩
    · exact congrArg condition (Expr.IsQuotedTree.normal_eq (.column hn))
    · rfl
  | columns xs => exact congrArg columns (Ident.delimit_map h)
  | natural | absent => rfl

theorem Criteria.IsPlain.same {Named : Ident → Prop} {c : Criteria} (h : c.IsPlain Named) :
    c.same c = true := by
  cases c with
  | condition e =>
    rcases h with ⟨n, -, rfl⟩ | ⟨b, rfl⟩
    · simp [Criteria.same, Expr.same, Name.same, sameList_refl]
    · simp [Criteria.same, Expr.boolean, Expr.same, Literal.same]
  | columns xs => exact sameList_refl xs
  | natural | absent => rfl

namespace Relation

variable {Listed : Ident → Prop} {r : Relation} {rs : List Relation}

/-- The names of the normal form are quoted. -/
theorem IsOverTables.normal (h : r.IsOverTables Ident.IsQuoted Ident.IsQuotable) :
    r.normal.IsOverTables Ident.IsQuoted Ident.IsQuoted := by
  induction h with
  | @table n hn =>
    rw [Relation.normal, Name.IsQuoted.delimit hn]
    exact .table hn
  | renamed _ hx hcs ih =>
    rw [Relation.normal, hx.delimit]
    exact .renamed ih hx (Ident.quoted_delimit_map hcs)
  | join _ _ hflaw hplain ihl ihr =>
    rw [Relation.normal, hplain.normal_eq]
    exact .join ihl ihr hflaw hplain
  | sample _ hp ih =>
    rw [Relation.normal, (Expr.isQuotedTree_integer hp).normal_eq]
    exact .sample ih hp
  | unnest hne hnames =>
    rw [Relation.normal, Expr.normals_columns hnames]
    exact .unnest hne hnames

/-- The normal form is the same relation up to the spelling of names in lists of columns. -/
theorem IsOverTables.same_normal (h : r.IsOverTables Ident.IsQuoted Ident.IsQuotable) :
    r.normal.same r = true := by
  induction h with
  | @table n hn =>
    rw [Relation.normal, Name.IsQuoted.delimit hn]
    simp [Relation.same, Name.same, sameList_refl, sameOption]
  | renamed _ hx hcs ih =>
    rw [Relation.normal, hx.delimit, Relation.same, ih, Ident.same_iff.2 rfl,
      Ident.sameList_delimit hcs]
    rfl
  | join _ _ _ hplain ihl ihr =>
    rw [Relation.normal, hplain.normal_eq]
    simp [Relation.same, ihl, ihr, hplain.same]
  | sample _ hp ih =>
    rw [Relation.normal, (Expr.isQuotedTree_integer hp).normal_eq]
    simp [Relation.same, ih, Expr.integer, Expr.same, Literal.same]
  | unnest _ hnames =>
    rw [Relation.normal, Expr.normals_columns hnames]
    simp [Relation.same, Expr.sameAll_columns]

/-- Quotes do not change where the relation is nested. -/
theorem IsOverTables.depth_normal (h : r.IsOverTables Ident.IsQuoted Listed) :
    r.normal.depth = r.depth := by
  induction h with
  | table => rfl
  | renamed _ _ _ ih => rw [Relation.normal, depth, tier_normal, ih, depth]
  | join _ _ _ hplain ihl ihr =>
    rw [Relation.normal, hplain.normal_eq, depth, tier_normal, ihl, ihr, depth]
  | sample _ hp ih =>
    rw [Relation.normal, (Expr.isQuotedTree_integer hp).normal_eq, depth, tier_normal, ih, depth]
  | unnest _ hnames => rw [Relation.normal, Expr.normals_columns hnames]

/-- A relation whose names are quoted is its own normal form. -/
theorem IsOverTables.normal_eq (h : r.IsOverTables Ident.IsQuoted Ident.IsQuoted) :
    r.normal = r := by
  induction h with
  | table hn => rw [Relation.normal, Name.IsQuoted.delimit hn]
  | renamed _ hx hcs ih => rw [Relation.normal, ih, hx.delimit, Ident.delimit_map hcs]
  | join _ _ _ hplain ihl ihr => rw [Relation.normal, ihl, ihr, hplain.normal_eq]
  | sample _ hp ih => rw [Relation.normal, ih, (Expr.isQuotedTree_integer hp).normal_eq]
  | unnest _ hnames => rw [Relation.normal, Expr.normals_columns hnames]

theorem sameAll_normals (h : ∀ r ∈ rs, r.IsOverTables Ident.IsQuoted Ident.IsQuotable) :
    sameAll (normals rs) rs = true := by
  induction rs with
  | nil => rfl
  | cons r rs ih =>
    obtain ⟨hr, hrs⟩ := List.forall_mem_cons.1 h
    rw [normals, sameAll, hr.same_normal, ih hrs]
    rfl

theorem depthAll_normals (h : ∀ r ∈ rs, r.IsOverTables Ident.IsQuoted Listed) :
    depthAll (normals rs) = depthAll rs := by
  induction rs with
  | nil => rfl
  | cons r rs ih =>
    obtain ⟨hr, hrs⟩ := List.forall_mem_cons.1 h
    rw [normals, depthAll, hr.depth_normal, ih hrs, depthAll]

theorem normals_self (h : ∀ r ∈ rs, r.IsOverTables Ident.IsQuoted Ident.IsQuoted) :
    normals rs = rs := by
  rw [normals_eq, List.map_congr_left fun r hr => (h r hr).normal_eq, List.map_id']

end Relation

/-! ### `SELECT *` over a list of relations -/

/-- `SELECT * FROM` the relations. -/
def Query.selectAll (sources : List Relation) : Query :=
  .ofBody (.select ⟨none, [.star none []], sources, none, none, none, []⟩)

theorem Query.selectAll_fixed {rs : List Relation}
    (h : ∀ r ∈ rs, r.IsOverTables Ident.IsQuoted Ident.IsQuoted) :
    ∀ k ∈ (selectAll rs).nodes, k.Fixed := by
  have hsources : ∀ k ∈ Relation.nodesAll rs, k.Fixed := by
    rw [Relation.nodesAll_eq]
    intro k hk
    obtain ⟨r, hr, hk⟩ := List.mem_flatMap.1 hk
    exact (h r hr).fixed k hk
  simp only [selectAll, ofBody, nodes, With.nodes?, Body.nodes, Select.nodes, SelectItem.nodesAll,
    SelectItem.nodes, OrderTerm.nodesAll, Expr.nodes?, GroupBy.nodes?, NamedWindow.nodesAll,
    List.nil_append, List.append_nil, List.forall_mem_cons, List.cons_append]
  refine ⟨⟨⟨⟨?_, ?_, ?_⟩, trivial, rfl⟩, rfl, rfl⟩, ⟨⟨trivial, trivial, rfl⟩, rfl, rfl⟩,
    ⟨⟨by simp [Node.Sound], trivial, rfl⟩, rfl, rfl⟩, ⟨⟨?_, ?_, rfl⟩, rfl, rfl⟩, hsources⟩
  · simp
  · simp
  · simp
  · exact ⟨by simp, by simp⟩
  · exact ⟨by simp, by simp⟩

theorem Query.normal_selectAll (rs : List Relation) :
    (selectAll rs).normal = selectAll (Relation.normals rs) := rfl

theorem Query.same_selectAll {rs rs' : List Relation} (h : Relation.sameAll rs rs' = true) :
    (selectAll rs).same (selectAll rs') = true := by
  simp [selectAll, ofBody, same, Body.same, Select.same, h, With.sameOpt, OrderTerm.sameAll,
    SelectItem.sameAll, SelectItem.same, Expr.sameOpt, GroupBy.sameOpt, NamedWindow.sameAll,
    sameOption, sameList]

theorem Query.depth_selectAll {rs rs' : List Relation}
    (h : Relation.depthAll rs = Relation.depthAll rs') :
    (selectAll rs).depth = (selectAll rs').depth := by
  simp only [selectAll, ofBody, depth, Body.depth, Select.depth, h]

/-- Printing `SELECT *` over relations built from tables in any layout and parsing the text gives
the normal form of the query, unless the text is nested too deeply. That is the same query up to the
spelling of names in lists of columns, and the very same one if those are quoted. -/
theorem Query.parse_print_selectAll {rs : List Relation}
    (h : ∀ r ∈ rs, r.IsOverTables Ident.IsQuoted Ident.IsQuotable) (o : Layout) :
    ((selectAll rs).normal.same (selectAll rs) = true ∧
        ((∀ r ∈ rs, r.IsOverTables Ident.IsQuoted Ident.IsQuoted) →
          (selectAll rs).normal = selectAll rs)) ∧
      ReadsBack (Query.parse ((selectAll rs).print o)) (selectAll rs).normal ∧
      ((selectAll rs).depth ≤ Grammar.maxDepth →
        Query.parse ((selectAll rs).print o) = .ok (selectAll rs).normal) := by
  have hnormal : ∀ r ∈ Relation.normals rs, r.IsOverTables Ident.IsQuoted Ident.IsQuoted := by
    rw [Relation.normals_eq]
    exact List.forall_mem_map.2 fun r hr => (h r hr).normal
  have hfixed := selectAll_fixed hnormal
  have hprint := (selectAll rs).print_normal o
  rw [normal_selectAll] at hprint ⊢
  have hread := readsBack_of_fixed hfixed o
  have hparse := (parse_print (ready_of_fixed hfixed) (o := o)).1
  rw [hprint] at hread hparse
  rw [depth_selectAll (Relation.depthAll_normals h)] at hparse
  exact ⟨⟨same_selectAll (Relation.sameAll_normals h),
    fun hquoted => congrArg selectAll (Relation.normals_self hquoted)⟩, hread, hparse⟩

/-- A sample under two aliases, joined with a join on its right. -/
def Relation.tablesSample : Relation :=
  .join (.renamed (.renamed (.sample (.table (.single (.quoted "t")) none) .system (.integer 10))
      (.quoted "a") []) (.quoted "b") [.quoted "X", .plain "y"])
    (.join (.table (.single (.quoted "u")) none) (.unnest [.column (.single (.quoted "y"))] true)
      .cross .absent) .left (.columns [.quoted "x"])

def Relation.sampleSources : List Relation := [tablesSample, .table (.single (.quoted "v")) none]

theorem Query.parse_print_sampleSources :
    (∀ r ∈ Relation.sampleSources, r.IsOverTables Ident.IsQuoted Ident.IsQuotable) ∧
      (selectAll Relation.sampleSources).depth ≤ Grammar.maxDepth ∧
      ∀ o, ((selectAll Relation.sampleSources).normal.same (selectAll Relation.sampleSources) =
            true ∧
          ((∀ r ∈ Relation.sampleSources, r.IsOverTables Ident.IsQuoted Ident.IsQuoted) →
            (selectAll Relation.sampleSources).normal = selectAll Relation.sampleSources)) ∧
        ReadsBack (Query.parse ((selectAll Relation.sampleSources).print o))
          (selectAll Relation.sampleSources).normal ∧
        ((selectAll Relation.sampleSources).depth ≤ Grammar.maxDepth →
          Query.parse ((selectAll Relation.sampleSources).print o) =
            .ok (selectAll Relation.sampleSources).normal) := by
  have table : ∀ text, text ≠ "" →
      (Relation.table (.single (.quoted text)) none).IsOverTables Ident.IsQuoted
        Ident.IsQuotable :=
    fun _ h => .table (Name.isQuoted_single h)
  have columns : Relation.IsOverTables Ident.IsQuoted Ident.IsQuotable
      (.unnest [.column (.single (.quoted "y"))] true) :=
    @Relation.IsOverTables.unnest _ _ [.single (.quoted "y")] true (List.cons_ne_nil _ _)
      (List.forall_mem_singleton.2 (Name.isQuoted_single (by decide)))
  have listed : ∀ x ∈ [Ident.quoted "X", .plain "y"], x.IsQuotable :=
    List.forall_mem_cons.2 ⟨⟨.inl rfl, by decide⟩,
      List.forall_mem_singleton.2 ⟨.inr (by decide +kernel), by decide⟩⟩
  have join : Relation.tablesSample.IsOverTables Ident.IsQuoted Ident.IsQuotable :=
    .join (.renamed (.renamed (.sample (table "t" (by decide)) (by decide)) ⟨rfl, by decide⟩
        (List.forall_mem_nil _)) ⟨rfl, by decide⟩ listed)
      (.join (table "u" (by decide)) columns rfl trivial) rfl
      (List.forall_mem_singleton.2 ⟨rfl, by decide⟩)
  have h : ∀ r ∈ Relation.sampleSources, r.IsOverTables Ident.IsQuoted Ident.IsQuotable :=
    List.forall_mem_cons.2 ⟨join, List.forall_mem_singleton.2 (table "v" (by decide))⟩
  exact ⟨h, by decide, fun o => parse_print_selectAll h o⟩

namespace Relation

def quotedTable (text : String) : Relation := .table (.single (.quoted text)) none

def listedTable (column : Ident) : Relation := .renamed (quotedTable "t") (.quoted "u") [column]

/-- An empty name of a source, of a column that is listed, joined, compared and expanded. -/
def namelessSources : List Relation :=
  [.renamed (quotedTable "t") (.quoted "") [], listedTable (.quoted ""),
    .join (quotedTable "t") (quotedTable "v") .inner (.columns [.quoted ""]),
    .join (quotedTable "t") (quotedTable "v") .inner (.condition (.column (.single (.quoted "")))),
    .unnest [.column (.single (.quoted ""))] false]

theorem isOverTables_quotedTable {Named Listed : Ident → Prop} {text : String} (h : text ≠ "") :
    (quotedTable text).IsOverTables Named Listed :=
  .table (Name.isQuoted_single h)

end Relation

/-- Not every source is read as itself: a name with capitals in a list of columns has to be quoted.
An empty name is not read at all, wherever it stands. -/
theorem Query.parse_print_unquotableSources :
    ((Relation.listedTable (.plain "X")).IsOverTables (·.delimited = true) (fun _ => True) ∧
      (selectAll [.listedTable (.plain "X")]).print {} =
        "SELECT * FROM \"t\" AS \"u\" (\"X\")" ∧
      ∃ q, Query.parse "SELECT * FROM \"t\" AS \"u\" (\"X\")" = .ok q ∧
        q.same (selectAll [.listedTable (.plain "X")]) = false) ∧
    ∀ r ∈ Relation.namelessSources, r.IsOverTables (·.delimited = true) (fun _ => True) ∧
      ∃ expected span, Query.parse ((selectAll [r]).print {}) =
        .error ⟨.unexpected expected (.error .emptyName), span⟩ := by
  have hquoted : ∀ r ∈ [Relation.listedTable (.quoted "X")],
      r.IsOverTables Ident.IsQuoted Ident.IsQuoted :=
    List.forall_mem_singleton.2 (.renamed (Relation.isOverTables_quotedTable (by decide))
      ⟨rfl, by decide⟩ (List.forall_mem_singleton.2 ⟨rfl, by decide⟩))
  have hread : Query.parse ((selectAll [.listedTable (.quoted "X")]).print {}) =
      .ok (selectAll [.listedTable (.quoted "X")]) :=
    (parse_print (ready_of_fixed (selectAll_fixed hquoted))).1 (by decide)
  have hprint : (selectAll [.listedTable (.quoted "X")]).print {} =
      "SELECT * FROM \"t\" AS \"u\" (\"X\")" := by
    decide +kernel
  have htable : ∀ text, text ≠ "" →
      (Relation.quotedTable text).IsOverTables (·.delimited = true) (fun _ => True) :=
    fun _ h => Relation.isOverTables_quotedTable h
  have hempty : ∀ x ∈ (Name.single (.quoted "")).parts, x.delimited = true := by decide
  have ht := htable "t" (by decide)
  have hv := htable "v" (by decide)
  have hunnest := @Relation.IsOverTables.unnest (·.delimited = true) (fun _ => True)
    [.single (.quoted "")] false (List.cons_ne_nil _ _) (List.forall_mem_singleton.2 hempty)
  refine ⟨⟨.renamed ht rfl fun _ _ => trivial, hprint, _, hprint ▸ hread, by decide +kernel⟩, ?_⟩
  simp only [Relation.namelessSources, List.forall_mem_cons]
  refine ⟨⟨.renamed ht rfl fun _ _ => trivial, "identifier", ⟨21, 23⟩, ?_⟩,
    ⟨.renamed ht rfl fun _ _ => trivial, "identifier", ⟨26, 28⟩, ?_⟩,
    ⟨.join ht hv rfl (List.forall_mem_singleton.2 rfl), "identifier", ⟨40, 42⟩, ?_⟩,
    ⟨.join ht hv rfl (.inl ⟨_, hempty, rfl⟩), "expression", ⟨36, 38⟩, ?_⟩,
    ⟨hunnest, "expression", ⟨21, 23⟩, ?_⟩, List.forall_mem_nil _⟩
  · exact Parser.run_error_of_map (by decide +kernel)
  · exact Parser.run_error_of_map (by decide +kernel)
  · exact Parser.run_error_of_map (by decide +kernel)
  · exact Parser.run_error_of_map (by decide +kernel)
  · exact Parser.run_error_of_map (by decide +kernel)

end Sql
