import Sql.Proofs.NormalForms
import Sql.Proofs.OperatorTrees

/-! Queries over tables: set operations, `WITH` and limits. The parser gives back the query that was
printed. -/
namespace Sql

section

variable (Named Listed : Ident → Prop)

def OrderTerm.IsColumn (t : OrderTerm) : Prop :=
  ∃ n : Name, (∀ x ∈ n.parts, Named x) ∧ t.expr = .column n

mutual

/-- Queries whose bodies are quoted tables, set operations, and queries in parentheses where those
are not redundant, with some names of `WITH` queries and of columns in `ORDER BY`, and some names in
lists of columns. -/
def Query.IsOverTables : Query → Prop
  | ⟨bindings, body, order, offset, limit⟩ =>
    With.IsOverTables? bindings ∧ body.IsOverTables ∧ (∀ t ∈ order, t.IsColumn Named) ∧
      (∀ n ∈ offset, n ≤ Token.maxInteger) ∧
      (∀ n, limit = some (.count n) → n ≤ Token.maxInteger) ∧
      ∀ inner, body = .nested inner → inner.isModified = true ∧
        Query.isModified ⟨bindings, body, order, offset, limit⟩ = true
termination_by structural q => q

def With.IsOverTables? : Option With → Prop
  | none => True
  | some w => w.IsOverTables
termination_by structural w => w

def With.IsOverTables : With → Prop
  | ⟨_, entries⟩ => entries ≠ [] ∧ Cte.AllOverTables entries
termination_by structural w => w

def Cte.AllOverTables : List Cte → Prop
  | [] => True
  | c :: cs => c.IsOverTables ∧ Cte.AllOverTables cs
termination_by structural cs => cs

def Cte.IsOverTables : Cte → Prop
  | ⟨name, columns, query⟩ => Named name ∧ (∀ x ∈ columns, Listed x) ∧ query.IsOverTables
termination_by structural c => c

def Body.IsOverTables : Body → Prop
  | .table n => n.IsQuoted
  | .setOperation o => o.IsOverTables
  | .nested q => q.IsOverTables
  | .select _ | .values _ => False
termination_by structural b => b

def SetOperation.IsOverTables : SetOperation → Prop
  | ⟨_, _, left, right⟩ => left.IsOverTables ∧ right.IsOverTables
termination_by structural o => o

end

end

/-! ### Each part is read back where it stands -/

theorem Expr.column_fixed {n : Name} (h : n.IsQuoted) : ∀ k ∈ (Expr.column n).nodes, k.Fixed :=
  IsQuotedTree.fixed (.column h)

theorem OrderTerm.columns_fixed {ts : List OrderTerm} (h : ∀ t ∈ ts, t.IsColumn Ident.IsQuoted) :
    ∀ k ∈ OrderTerm.nodesAll ts, k.Fixed := by
  rw [OrderTerm.nodesAll_eq]
  intro k hk
  obtain ⟨⟨e, _, _⟩, ht, hk⟩ := List.mem_flatMap.1 hk
  obtain ⟨n, hn, rfl⟩ := h _ ht
  exact Expr.column_fixed hn k hk

mutual

theorem Query.IsOverTables.fixed :
    ∀ {q : Query}, q.IsOverTables Ident.IsQuoted Ident.IsQuoted → ∀ k ∈ q.nodes, k.Fixed
  | ⟨bindings, body, order, offset, limit⟩, h => by
    obtain ⟨hbindings, hbody, horder, hoffset, hlimit, hnested⟩ := h
    simp only [Query.nodes, List.forall_mem_cons, List.forall_mem_append]
    exact ⟨⟨⟨⟨hnested, hoffset, hlimit⟩, trivial, rfl⟩, rfl, rfl⟩,
      With.IsOverTables?.fixed hbindings, Body.IsOverTables.fixed hbody,
      OrderTerm.columns_fixed horder⟩
termination_by structural q => q

theorem With.IsOverTables?.fixed : ∀ {w : Option With},
    With.IsOverTables? Ident.IsQuoted Ident.IsQuoted w → ∀ k ∈ With.nodes? w, k.Fixed
  | none, _ => by simp [With.nodes?]
  | some w, h => With.IsOverTables.fixed h
termination_by structural w => w

theorem With.IsOverTables.fixed :
    ∀ {w : With}, w.IsOverTables Ident.IsQuoted Ident.IsQuoted → ∀ k ∈ w.nodes, k.Fixed
  | ⟨_, entries⟩, h => by
    simp only [With.nodes, List.forall_mem_cons]
    exact ⟨⟨⟨h.1, trivial, rfl⟩, rfl, rfl⟩, Cte.AllOverTables.fixed h.2⟩
termination_by structural w => w

theorem Cte.AllOverTables.fixed : ∀ {cs : List Cte},
    Cte.AllOverTables Ident.IsQuoted Ident.IsQuoted cs → ∀ k ∈ Cte.nodesAll cs, k.Fixed
  | [], _ => by simp [Cte.nodesAll]
  | c :: cs, h => by
    simp only [Cte.nodesAll, List.forall_mem_append]
    exact ⟨Cte.IsOverTables.fixed h.1, Cte.AllOverTables.fixed h.2⟩
termination_by structural cs => cs

theorem Cte.IsOverTables.fixed :
    ∀ {c : Cte}, c.IsOverTables Ident.IsQuoted Ident.IsQuoted → ∀ k ∈ c.nodes, k.Fixed
  | ⟨name, columns, query⟩, h => by
    obtain ⟨hname, hcolumns, hquery⟩ := h
    have hsound : Cte.Sound ⟨name, columns, query⟩ := ⟨hname.2, fun x hx => (hcolumns x hx).2⟩
    simp only [Cte.nodes, List.forall_mem_cons]
    exact ⟨⟨⟨hsound, ⟨hname.1, fun x hx => (hcolumns x hx).1⟩, rfl⟩, rfl, rfl⟩,
      Query.IsOverTables.fixed hquery⟩
termination_by structural c => c

theorem Body.IsOverTables.fixed :
    ∀ {b : Body}, b.IsOverTables Ident.IsQuoted Ident.IsQuoted → ∀ k ∈ b.nodes, k.Fixed
  | .table n, h => by
    have hn : n.IsQuoted := h
    simp only [Body.nodes, List.forall_mem_singleton]
    exact ⟨⟨hn.named, hn.delimited, rfl⟩, rfl, rfl⟩
  | .setOperation o, h => by
    simp only [Body.nodes, List.forall_mem_cons]
    exact ⟨⟨⟨trivial, trivial, rfl⟩, rfl, rfl⟩, SetOperation.IsOverTables.fixed h⟩
  | .nested q, h => by
    simp only [Body.nodes, List.forall_mem_cons]
    exact ⟨⟨⟨trivial, trivial, rfl⟩, rfl, rfl⟩, Query.IsOverTables.fixed h⟩
  | .select _, h | .values _, h => h.elim
termination_by structural b => b

theorem SetOperation.IsOverTables.fixed :
    ∀ {o : SetOperation}, o.IsOverTables Ident.IsQuoted Ident.IsQuoted → ∀ k ∈ o.nodes, k.Fixed
  | ⟨_, _, left, right⟩, h => by
    simp only [SetOperation.nodes, List.forall_mem_append]
    exact ⟨Query.IsOverTables.fixed h.1, Query.IsOverTables.fixed h.2⟩
termination_by structural o => o

end

/-! ### The normal form of a query -/

theorem Ident.quoted_delimit_map {xs : List Ident} (h : ∀ x ∈ xs, x.IsQuotable) :
    ∀ x ∈ xs.map delimit, x.IsQuoted :=
  List.forall_mem_map.2 fun x hx => (h x hx).delimit

theorem Ident.sameList_delimit {xs : List Ident} (h : ∀ x ∈ xs, x.IsQuotable) :
    sameList Ident.same (xs.map delimit) xs = true := by
  rw [sameList_same_iff, List.map_map]
  exact List.map_congr_left fun x hx => same_iff.1 (h x hx).same

/-- Columns that are quoted stay as they are. -/
theorem OrderTerm.normals_columns {ts : List OrderTerm}
    (h : ∀ t ∈ ts, t.IsColumn Ident.IsQuoted) : normals ts = ts := by
  rw [normals_eq]
  refine (List.map_congr_left ?_).trans (List.map_id' ts)
  rintro ⟨e, _, _⟩ ht
  obtain ⟨n, hn, rfl⟩ := h _ ht
  rw [normal, Expr.normal, Name.IsQuoted.delimit hn]

theorem OrderTerm.sameAll_columns {ts : List OrderTerm}
    (h : ∀ t ∈ ts, t.IsColumn Ident.IsQuoted) : sameAll ts ts = true := by
  induction ts with
  | nil => rfl
  | cons t ts ih =>
    obtain ⟨ht, hts⟩ := List.forall_mem_cons.1 h
    obtain ⟨e, _, _⟩ := t
    obtain ⟨n, -, rfl⟩ := ht
    simp [sameAll, OrderTerm.same, Expr.same, Name.same, sameList_refl, ih hts]

mutual

/-- The names of the normal form are quoted. -/
theorem Query.IsOverTables.normal : ∀ {q : Query}, q.IsOverTables Ident.IsQuoted Ident.IsQuotable →
    q.normal.IsOverTables Ident.IsQuoted Ident.IsQuoted
  | ⟨bindings, body, order, offset, limit⟩, h => by
    obtain ⟨hbindings, hbody, horder, hoffset, hlimit, hnested⟩ := h
    have hsound : Query.Sound ⟨bindings, body, order, offset, limit⟩ := ⟨hnested, hoffset, hlimit⟩
    refine ⟨With.IsOverTables?.normal hbindings, Body.IsOverTables.normal hbody, ?_, hoffset,
      hlimit, hsound.normal.nested⟩
    rwa [OrderTerm.normals_columns horder]
termination_by structural q => q

theorem With.IsOverTables?.normal : ∀ {w : Option With},
    With.IsOverTables? Ident.IsQuoted Ident.IsQuotable w →
    With.IsOverTables? Ident.IsQuoted Ident.IsQuoted (With.normal? w)
  | none, _ => trivial
  | some _, h => With.IsOverTables.normal h
termination_by structural w => w

theorem With.IsOverTables.normal : ∀ {w : With}, w.IsOverTables Ident.IsQuoted Ident.IsQuotable →
    w.normal.IsOverTables Ident.IsQuoted Ident.IsQuoted
  | ⟨_, entries⟩, h => by
    refine ⟨?_, Cte.AllOverTables.normal h.2⟩
    rw [Cte.normals_eq]
    exact List.map_eq_nil_iff.not.2 h.1
termination_by structural w => w

theorem Cte.AllOverTables.normal : ∀ {cs : List Cte},
    Cte.AllOverTables Ident.IsQuoted Ident.IsQuotable cs →
    Cte.AllOverTables Ident.IsQuoted Ident.IsQuoted (Cte.normals cs)
  | [], _ => trivial
  | _ :: _, h => ⟨Cte.IsOverTables.normal h.1, Cte.AllOverTables.normal h.2⟩
termination_by structural cs => cs

theorem Cte.IsOverTables.normal : ∀ {c : Cte}, c.IsOverTables Ident.IsQuoted Ident.IsQuotable →
    c.normal.IsOverTables Ident.IsQuoted Ident.IsQuoted
  | ⟨name, columns, query⟩, h => by
    obtain ⟨hname, hcolumns, hquery⟩ := h
    refine ⟨?_, Ident.quoted_delimit_map hcolumns, Query.IsOverTables.normal hquery⟩
    rwa [hname.delimit]
termination_by structural c => c

theorem Body.IsOverTables.normal : ∀ {b : Body}, b.IsOverTables Ident.IsQuoted Ident.IsQuotable →
    b.normal.IsOverTables Ident.IsQuoted Ident.IsQuoted
  | .table n, h => by
    have hn : n.IsQuoted := h
    rwa [Body.normal, hn.delimit]
  | .setOperation o, h => SetOperation.IsOverTables.normal h
  | .nested q, h => Query.IsOverTables.normal h
  | .select _, h | .values _, h => h.elim
termination_by structural b => b

theorem SetOperation.IsOverTables.normal : ∀ {o : SetOperation},
    o.IsOverTables Ident.IsQuoted Ident.IsQuotable →
    o.normal.IsOverTables Ident.IsQuoted Ident.IsQuoted
  | ⟨_, _, _, _⟩, h => ⟨Query.IsOverTables.normal h.1, Query.IsOverTables.normal h.2⟩
termination_by structural o => o

end

mutual

/-- The normal form is the same query up to the spelling of names in lists of columns. -/
theorem Query.IsOverTables.same_normal :
    ∀ {q : Query}, q.IsOverTables Ident.IsQuoted Ident.IsQuotable → q.normal.same q = true
  | ⟨bindings, body, order, offset, limit⟩, h => by
    obtain ⟨hbindings, hbody, horder, -, -, -⟩ := h
    rw [Query.normal, Query.same, With.IsOverTables?.same_normal hbindings,
      Body.IsOverTables.same_normal hbody, OrderTerm.normals_columns horder,
      OrderTerm.sameAll_columns horder]
    simp
termination_by structural q => q

theorem With.IsOverTables?.same_normal : ∀ {w : Option With},
    With.IsOverTables? Ident.IsQuoted Ident.IsQuotable w → With.sameOpt (With.normal? w) w = true
  | none, _ => rfl
  | some _, h => With.IsOverTables.same_normal h
termination_by structural w => w

theorem With.IsOverTables.same_normal :
    ∀ {w : With}, w.IsOverTables Ident.IsQuoted Ident.IsQuotable → w.normal.same w = true
  | ⟨recursive, entries⟩, h => by
    rw [With.normal, With.same, Cte.AllOverTables.same_normal h.2]
    simp
termination_by structural w => w

theorem Cte.AllOverTables.same_normal : ∀ {cs : List Cte},
    Cte.AllOverTables Ident.IsQuoted Ident.IsQuotable cs → Cte.sameAll (Cte.normals cs) cs = true
  | [], _ => rfl
  | c :: cs, h => by
    rw [Cte.normals, Cte.sameAll, Cte.IsOverTables.same_normal h.1,
      Cte.AllOverTables.same_normal h.2]
    rfl
termination_by structural cs => cs

theorem Cte.IsOverTables.same_normal :
    ∀ {c : Cte}, c.IsOverTables Ident.IsQuoted Ident.IsQuotable → c.normal.same c = true
  | ⟨name, columns, query⟩, h => by
    obtain ⟨hname, hcolumns, hquery⟩ := h
    rw [Cte.normal, Cte.same, hname.delimit, Ident.sameList_delimit hcolumns,
      Query.IsOverTables.same_normal hquery, Ident.same_iff.2 rfl]
    rfl
termination_by structural c => c

theorem Body.IsOverTables.same_normal :
    ∀ {b : Body}, b.IsOverTables Ident.IsQuoted Ident.IsQuotable → b.normal.same b = true
  | .table n, h => by
    have hn : n.IsQuoted := h
    rw [Body.normal, hn.delimit]
    exact sameList_refl _
  | .setOperation o, h => SetOperation.IsOverTables.same_normal h
  | .nested q, h => Query.IsOverTables.same_normal h
  | .select _, h | .values _, h => h.elim
termination_by structural b => b

theorem SetOperation.IsOverTables.same_normal :
    ∀ {o : SetOperation}, o.IsOverTables Ident.IsQuoted Ident.IsQuotable → o.normal.same o = true
  | ⟨operator, all, left, right⟩, h => by
    rw [SetOperation.normal, SetOperation.same, Query.IsOverTables.same_normal h.1,
      Query.IsOverTables.same_normal h.2]
    simp
termination_by structural o => o

end

section

variable {Listed : Ident → Prop}

mutual

/-- Quotes do not change where the query is nested. -/
theorem Query.IsOverTables.depth_normal :
    ∀ {q : Query}, q.IsOverTables Ident.IsQuoted Listed → q.normal.depth = q.depth
  | ⟨bindings, body, order, offset, limit⟩, h => by
    obtain ⟨hbindings, hbody, horder, -, -, -⟩ := h
    rw [Query.normal, Query.depth, With.IsOverTables?.depth_normal hbindings,
      Body.IsOverTables.depth_normal hbody, OrderTerm.normals_columns horder, Query.depth]
termination_by structural q => q

theorem With.IsOverTables?.depth_normal : ∀ {w : Option With},
    With.IsOverTables? Ident.IsQuoted Listed w → With.depth? (With.normal? w) = With.depth? w
  | none, _ => rfl
  | some _, h => congrArg (· + 1) (With.IsOverTables.depth_normal h)
termination_by structural w => w

theorem With.IsOverTables.depth_normal :
    ∀ {w : With}, w.IsOverTables Ident.IsQuoted Listed → w.normal.depth = w.depth
  | ⟨_, _⟩, h => Cte.AllOverTables.depth_normal h.2
termination_by structural w => w

theorem Cte.AllOverTables.depth_normal : ∀ {cs : List Cte},
    Cte.AllOverTables Ident.IsQuoted Listed cs → Cte.depthAll (Cte.normals cs) = Cte.depthAll cs
  | [], _ => rfl
  | c :: cs, h => by
    rw [Cte.normals, Cte.depthAll, Cte.IsOverTables.depth_normal h.1,
      Cte.AllOverTables.depth_normal h.2, Cte.depthAll]
termination_by structural cs => cs

theorem Cte.IsOverTables.depth_normal :
    ∀ {c : Cte}, c.IsOverTables Ident.IsQuoted Listed → c.normal.depth = c.depth
  | ⟨_, _, _⟩, h => Query.IsOverTables.depth_normal h.2.2
termination_by structural c => c

theorem Body.IsOverTables.depth_normal :
    ∀ {b : Body}, b.IsOverTables Ident.IsQuoted Listed → b.normal.depth = b.depth
  | .table _, _ => rfl
  | .setOperation _, h => SetOperation.IsOverTables.depth_normal h
  | .nested _, h => congrArg (· + 1) (Query.IsOverTables.depth_normal h)
  | .select _, h | .values _, h => h.elim
termination_by structural b => b

theorem SetOperation.IsOverTables.depth_normal :
    ∀ {o : SetOperation}, o.IsOverTables Ident.IsQuoted Listed → o.normal.depth = o.depth
  | ⟨operator, all, left, right⟩, h => by
    rw [SetOperation.normal, SetOperation.depth, SetOperation.needsParens_normal,
      SetOperation.needsParens_normal, Query.IsOverTables.depth_normal h.1,
      Query.IsOverTables.depth_normal h.2, SetOperation.depth]
termination_by structural o => o

end

end

mutual

/-- A query whose names are quoted is its own normal form. -/
theorem Query.IsOverTables.normal_eq :
    ∀ {q : Query}, q.IsOverTables Ident.IsQuoted Ident.IsQuoted → q.normal = q
  | ⟨bindings, body, order, offset, limit⟩, h => by
    obtain ⟨hbindings, hbody, horder, -, -, -⟩ := h
    rw [Query.normal, With.IsOverTables?.normal_eq hbindings, Body.IsOverTables.normal_eq hbody,
      OrderTerm.normals_columns horder]
termination_by structural q => q

theorem With.IsOverTables?.normal_eq : ∀ {w : Option With},
    With.IsOverTables? Ident.IsQuoted Ident.IsQuoted w → With.normal? w = w
  | none, _ => rfl
  | some _, h => congrArg some (With.IsOverTables.normal_eq h)
termination_by structural w => w

theorem With.IsOverTables.normal_eq :
    ∀ {w : With}, w.IsOverTables Ident.IsQuoted Ident.IsQuoted → w.normal = w
  | ⟨_, entries⟩, h => by rw [With.normal, Cte.AllOverTables.normal_eq h.2]
termination_by structural w => w

theorem Cte.AllOverTables.normal_eq : ∀ {cs : List Cte},
    Cte.AllOverTables Ident.IsQuoted Ident.IsQuoted cs → Cte.normals cs = cs
  | [], _ => rfl
  | c :: cs, h => by
    rw [Cte.normals, Cte.IsOverTables.normal_eq h.1, Cte.AllOverTables.normal_eq h.2]
termination_by structural cs => cs

theorem Cte.IsOverTables.normal_eq :
    ∀ {c : Cte}, c.IsOverTables Ident.IsQuoted Ident.IsQuoted → c.normal = c
  | ⟨name, columns, query⟩, h => by
    obtain ⟨hname, hcolumns, hquery⟩ := h
    rw [Cte.normal, hname.delimit, Ident.delimit_map hcolumns, Query.IsOverTables.normal_eq hquery]
termination_by structural c => c

theorem Body.IsOverTables.normal_eq :
    ∀ {b : Body}, b.IsOverTables Ident.IsQuoted Ident.IsQuoted → b.normal = b
  | .table _, h => congrArg Body.table (Name.IsQuoted.delimit h)
  | .setOperation _, h => congrArg Body.setOperation (SetOperation.IsOverTables.normal_eq h)
  | .nested _, h => congrArg Body.nested (Query.IsOverTables.normal_eq h)
  | .select _, h | .values _, h => h.elim
termination_by structural b => b

theorem SetOperation.IsOverTables.normal_eq :
    ∀ {o : SetOperation}, o.IsOverTables Ident.IsQuoted Ident.IsQuoted → o.normal = o
  | ⟨_, _, left, right⟩, h => by
    rw [SetOperation.normal, Query.IsOverTables.normal_eq h.1, Query.IsOverTables.normal_eq h.2]
termination_by structural o => o

end

/-- Printing a query over tables in any layout and parsing the text gives its normal form, unless
the text is nested too deeply. That is the same query up to the spelling of names in lists of
columns, and the very same one if those are quoted. -/
theorem Query.parse_print_overTables {q : Query}
    (h : q.IsOverTables Ident.IsQuoted Ident.IsQuotable) (o : Layout) :
    (q.normal.same q = true ∧
        (q.IsOverTables Ident.IsQuoted Ident.IsQuoted → q.normal = q)) ∧
      ReadsBack (Query.parse (q.print o)) q.normal ∧
      (q.depth ≤ Grammar.maxDepth → Query.parse (q.print o) = .ok q.normal) := by
  have hprint := q.print_normal o
  have hread := readsBack_of_fixed h.normal.fixed o
  have hparse := (parse_print (ready_of_fixed h.normal.fixed) (o := o)).1
  rw [hprint] at hread hparse
  rw [h.depth_normal] at hparse
  exact ⟨⟨h.same_normal, fun hquoted => hquoted.normal_eq⟩, hread, hparse⟩

def Query.sampleTable (text : String) : Query := .ofBody (.table (.single (.quoted text)))

/-- A union with a limited right side, in parentheses because the rows are limited once more. -/
def Query.tablesSample : Query :=
  ⟨some ⟨true, [⟨.quoted "w", [.quoted "C\"", .plain "d"], sampleTable "t"⟩]⟩,
    .nested ⟨none, .setOperation ⟨.union, true, sampleTable "w",
      ⟨none, .table (.single (.quoted "u")), [⟨.column (.single (.quoted "x")), true, some .first⟩],
        none, some (.count 9)⟩⟩, [], some 2, none⟩,
    [], none, some .all⟩

theorem Query.parse_print_tablesSample :
    tablesSample.IsOverTables Ident.IsQuoted Ident.IsQuotable ∧
      tablesSample.depth ≤ Grammar.maxDepth ∧
      ∀ o, (tablesSample.normal.same tablesSample = true ∧
          (tablesSample.IsOverTables Ident.IsQuoted Ident.IsQuoted →
            tablesSample.normal = tablesSample)) ∧
        ReadsBack (Query.parse (tablesSample.print o)) tablesSample.normal ∧
        (tablesSample.depth ≤ Grammar.maxDepth →
          Query.parse (tablesSample.print o) = .ok tablesSample.normal) := by
  have hlower : (Ident.plain "d").IsQuotable := ⟨.inr (by decide +kernel), by decide⟩
  have h : tablesSample.IsOverTables Ident.IsQuoted Ident.IsQuotable := by
    simp [tablesSample, sampleTable, ofBody, IsOverTables, With.IsOverTables?, With.IsOverTables,
      Cte.AllOverTables, Cte.IsOverTables, Body.IsOverTables, SetOperation.IsOverTables,
      OrderTerm.IsColumn, Name.IsQuoted, Name.single, Name.parts, Ident.IsQuoted, Ident.quoted,
      isModified, Token.maxInteger, hlower]
    exact ⟨.inl rfl, by decide⟩
  exact ⟨h, by decide, fun o => parse_print_overTables h o⟩

/-- `TABLE "w"`, where `w` is a table of its own under some name and columns. -/
def Query.boundTable (name : Ident) (columns : List Ident) : Query :=
  ⟨some ⟨false, [⟨name, columns, sampleTable "t"⟩]⟩, .table (.single (.quoted "w")), [], none, none⟩

def Query.sortedTable (column : Ident) : Query :=
  ⟨none, .table (.single (.quoted "t")), [⟨.column (.single column), false, none⟩], none, none⟩

/-- An empty name of a query, of a column that is listed and of a column that sorts. -/
def Query.namelessTables : List Query :=
  [boundTable (.quoted "") [], boundTable (.quoted "w") [.quoted ""], sortedTable (.quoted "")]

section

variable {Named Listed : Ident → Prop}

theorem Query.isOverTables_sampleTable {text : String} (h : text ≠ "") :
    (sampleTable text).IsOverTables Named Listed :=
  ⟨trivial, Name.isQuoted_single h, List.forall_mem_nil _, by simp, by simp, by simp⟩

theorem Query.isOverTables_boundTable {name : Ident} {columns : List Ident} (hname : Named name)
    (hcolumns : ∀ x ∈ columns, Listed x) : (boundTable name columns).IsOverTables Named Listed :=
  ⟨⟨List.cons_ne_nil _ _, ⟨hname, hcolumns, isOverTables_sampleTable (by decide)⟩, trivial⟩,
    Name.isQuoted_single (by decide), List.forall_mem_nil _, by simp, by simp, by simp⟩

theorem Query.isOverTables_sortedTable {column : Ident} (h : Named column) :
    (sortedTable column).IsOverTables Named Listed :=
  ⟨trivial, Name.isQuoted_single (by decide),
    List.forall_mem_singleton.2 ⟨.single column, List.forall_mem_singleton.2 h, rfl⟩, by simp,
    by simp, by simp⟩

end

/-- Not every list of columns is read as itself: a name with capitals has to be quoted. An empty
name is not read at all, wherever it stands. -/
theorem Query.parse_print_unquotableColumns :
    ((boundTable (.quoted "w") [.plain "X"]).IsOverTables (·.delimited = true) (fun _ => True) ∧
      (boundTable (.quoted "w") [.plain "X"]).print {} =
        "WITH \"w\" (\"X\") AS (TABLE \"t\") TABLE \"w\"" ∧
      ∃ q, Query.parse "WITH \"w\" (\"X\") AS (TABLE \"t\") TABLE \"w\"" = .ok q ∧
        q.same (boundTable (.quoted "w") [.plain "X"]) = false) ∧
    ∀ q ∈ namelessTables, q.IsOverTables (·.delimited = true) (fun _ => True) ∧
      ∃ expected span, Query.parse (q.print {}) =
        .error ⟨.unexpected expected (.error .emptyName), span⟩ := by
  have hquoted : (boundTable (.quoted "w") [.quoted "X"]).IsOverTables Ident.IsQuoted
      Ident.IsQuoted :=
    isOverTables_boundTable ⟨rfl, by decide⟩ (List.forall_mem_singleton.2 ⟨rfl, by decide⟩)
  have hread : Query.parse ((boundTable (.quoted "w") [.quoted "X"]).print {}) =
      .ok (boundTable (.quoted "w") [.quoted "X"]) :=
    (parse_print (ready_of_fixed hquoted.fixed)).1 (by decide)
  have hprint : (boundTable (.quoted "w") [.quoted "X"]).print {} =
      "WITH \"w\" (\"X\") AS (TABLE \"t\") TABLE \"w\"" := by
    decide +kernel
  refine ⟨⟨isOverTables_boundTable rfl fun _ _ => trivial, hprint, _, hprint ▸ hread,
    by decide +kernel⟩, ?_⟩
  simp only [namelessTables, List.forall_mem_cons]
  refine ⟨⟨isOverTables_boundTable rfl fun _ _ => trivial, "identifier", ⟨5, 7⟩, ?_⟩,
    ⟨isOverTables_boundTable rfl fun _ _ => trivial, "identifier", ⟨10, 12⟩, ?_⟩,
    ⟨isOverTables_sortedTable rfl, "expression", ⟨19, 21⟩, ?_⟩, List.forall_mem_nil _⟩
  · exact Parser.run_error_of_map (by decide +kernel)
  · exact Parser.run_error_of_map (by decide +kernel)
  · exact Parser.run_error_of_map (by decide +kernel)

end Sql
