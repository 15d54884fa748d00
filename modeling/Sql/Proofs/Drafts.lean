import Sql.Proofs.Composed
import Sql.SelectDraft

/-! Selections put together step by step: their text is read back as a tree that prints the same
text, as long as the counts of rows are integers. -/
namespace Sql

/-! ### Steps -/

namespace SelectDraft

/-- The parts that a step adds. -/
def Step.IsComposed : Step → Prop
  | .items is => ∀ i ∈ is, i.IsComposed
  | .source r => r.IsComposed
  | .binding x _ => x.Named
  | .join r _ criteria => r.IsComposed ∧ criteria.IsComposed
  | .filter e | .having e => e.IsComposed
  | .order ts => ∀ t ∈ ts, t.IsComposed
  | .group es => ∀ e ∈ es, e.IsComposed
  | .distinct | .limit _ | .offset _ => True

end SelectDraft

/-- The counts of rows are integers. -/
def Query.IsCounted (q : Query) : Prop :=
  (∀ n ∈ q.offset, n ≤ Token.maxInteger) ∧
    ∀ n, q.limit = some (.count n) → n ≤ Token.maxInteger

/-- Queries that some steps build, and so on for the queries that they bind. -/
inductive Query.IsBuilt : Query → Prop
  | build {steps : List SelectDraft.Step} {d : SelectDraft} {q : Query} :
      (∀ s ∈ steps, s.IsComposed) → (∀ x r, .binding x r ∈ steps → IsBuilt r) →
      steps.foldlM SelectDraft.step? .empty = some d → d.build = .ok q → q.IsCounted → IsBuilt q

namespace SelectDraft

/-- All parts of a draft are read back from their normal form. -/
structure IsComposed (d : SelectDraft) : Prop where
  bindings : ∀ c ∈ d.bindings, c.name.Named ∧ c.columns = [] ∧ ∀ k ∈ c.query.normal.nodes, k.Fixed
  items : ∀ i ∈ d.items, i.IsComposed
  sources : ∀ r ∈ d.sources, r.IsComposed
  filter : ∀ e ∈ d.filter, e.IsComposed
  group : ∀ e ∈ d.group, e.IsComposed
  having : ∀ e ∈ d.having, e.IsComposed
  order : ∀ t ∈ d.order, t.IsComposed

variable {d d' : SelectDraft}

theorem IsComposed.empty : IsComposed .empty :=
  ⟨nofun, nofun, nofun, nofun, nofun, nofun, nofun⟩

theorem conjoin_composed {earlier : Option Expr} {e : Expr} (h : ∀ x ∈ earlier, x.IsComposed)
    (he : e.IsComposed) : (conjoin earlier e).IsComposed := by
  cases earlier with
  | none => exact he
  | some x => exact .binary (h x rfl) he

theorem IsComposed.join (h : d.IsComposed) {right : Relation} {kind : JoinKind}
    {criteria : Criteria} (hright : right.IsComposed) (hcriteria : criteria.IsComposed) :
    (d.join right kind criteria).IsComposed := by
  unfold SelectDraft.join
  split
  · exact h
  · rename_i left hleft
    split
    · rename_i joined hjoined
      rw [Relation.buildJoin] at hjoined
      split at hjoined
      · cases hjoined
      · rename_i hflaw
        cases hjoined
        have hl : left.IsComposed := h.sources left (List.mem_of_getLast? hleft)
        refine { h with sources := ?_ }
        intro r hr
        rcases List.mem_append.1 hr with hr | hr
        · exact h.sources r (List.dropLast_subset _ hr)
        · rw [List.mem_singleton.1 hr]
          exact .join hl hright hflaw hcriteria
    · exact { h with }

/-- A step adds its own parts to a draft. -/
theorem IsComposed.take (h : d.IsComposed) {s : Step} (hs : s.IsComposed)
    (hbinding : ∀ x q, s = .binding x q → ∀ k ∈ q.normal.nodes, k.Fixed) :
    (d.take s).IsComposed := by
  cases s with
  | items is => exact { h with items := List.forall_mem_append.2 ⟨h.items, hs⟩ }
  | source r =>
    exact { h with sources := List.forall_mem_append.2 ⟨h.sources, List.forall_mem_singleton.2 hs⟩ }
  | binding x q =>
    have hq := hbinding x q rfl
    exact { h with
      bindings := List.forall_mem_append.2 ⟨h.bindings, List.forall_mem_singleton.2 ⟨hs, rfl, hq⟩⟩ }
  | join r kind criteria => exact h.join hs.1 hs.2
  | filter e =>
    refine { h with filter := ?_ }
    intro x hx
    cases hx
    exact conjoin_composed h.filter hs
  | having e =>
    refine { h with having := ?_ }
    intro x hx
    cases hx
    exact conjoin_composed h.having hs
  | order ts => exact { h with order := List.forall_mem_append.2 ⟨h.order, hs⟩ }
  | group es => exact { h with group := List.forall_mem_append.2 ⟨h.group, hs⟩ }
  | distinct | limit n | offset n => exact { h with }

theorem IsComposed.run {steps : List Step} (h : d.IsComposed) (hsteps : ∀ s ∈ steps, s.IsComposed)
    (hbindings : ∀ x q, .binding x q ∈ steps → ∀ k ∈ q.normal.nodes, k.Fixed)
    (hrun : steps.foldlM step? d = some d') : d'.IsComposed := by
  induction steps generalizing d with
  | nil =>
    cases hrun
    exact h
  | cons s steps ih =>
    rw [List.foldlM_cons] at hrun
    obtain ⟨d₁, hstep, hrun⟩ := Option.bind_eq_some_iff.1 hrun
    unfold step? at hstep
    split at hstep
    · cases hstep
      refine ih (h.take (hsteps s List.mem_cons_self) ?_) ?_ ?_ hrun
      · rintro x q rfl
        exact hbindings x q List.mem_cons_self
      · intro t ht
        exact hsteps t (List.mem_cons_of_mem s ht)
      · intro x q hq
        exact hbindings x q (List.mem_cons_of_mem s hq)
    · cases hstep

/-- A selection that is built has at least one item. -/
theorem build_eq_ok {q : Query} (h : d.build = .ok q) : d.items ≠ [] ∧
    q = ⟨if d.bindings.isEmpty then none else some ⟨false, d.bindings⟩,
      .select ⟨if d.distinct then some .distinct else none, d.items, d.sources, d.filter,
        if d.group.isEmpty then none else some ⟨none, d.group.map .expr⟩, d.having, []⟩,
      d.order, d.offset, d.limit⟩ := by
  unfold build Select.build at h
  split at h
  · cases h
  · split at h
    · cases h
    · rename_i hitems
      cases h
      exact ⟨fun hnil => hitems (by rw [hnil]; rfl), rfl⟩

end SelectDraft

/-! ### Queries -/

namespace SelectDraft.IsComposed

variable {d : SelectDraft}

theorem bindings_fixed (h : d.IsComposed) : ∀ k ∈ With.nodes?
    (With.normal? (if d.bindings.isEmpty then none else some ⟨false, d.bindings⟩)), k.Fixed := by
  split
  · nofun
  · rename_i hsome
    rw [With.normal?, With.nodes?, With.normal, With.nodes, List.forall_mem_cons]
    constructor
    · refine ⟨⟨?_, trivial, rfl⟩, rfl, rfl⟩
      intro hnil
      rw [Cte.normals_eq, List.map_eq_nil_iff] at hnil
      exact hsome (by rw [hnil]; rfl)
    · rw [Cte.nodesAll_eq, Cte.normals_eq, List.flatMap_map, List.forall_mem_flatMap]
      rintro ⟨name, columns, query⟩ hc
      obtain ⟨hname, rfl, hquery⟩ := h.bindings _ hc
      rw [Cte.normal, Cte.nodes, List.forall_mem_cons]
      exact ⟨⟨⟨⟨hname, nofun⟩, ⟨rfl, nofun⟩, rfl⟩, rfl, rfl⟩, hquery⟩

theorem group_fixed (h : d.IsComposed) : ∀ k ∈ GroupBy.nodes? (GroupBy.normal?
    (if d.group.isEmpty then none else some ⟨none, d.group.map .expr⟩)), k.Fixed := by
  split
  · nofun
  · rename_i hsome
    rw [GroupBy.normal?, GroupBy.nodes?, GroupBy.normal, GroupBy.nodes, List.forall_mem_cons]
    refine ⟨⟨⟨?_, trivial, rfl⟩, rfl, rfl⟩, GroupingElement.exprs_fixed h.group⟩
    intro hnil
    rw [GroupingElement.normals_eq, List.map_eq_nil_iff, List.map_eq_nil_iff] at hnil
    exact hsome (by rw [hnil]; rfl)

theorem build (h : d.IsComposed) {q : Query} (hq : d.build = .ok q) (hcounts : q.IsCounted) :
    ∀ k ∈ q.normal.nodes, k.Fixed := by
  obtain ⟨hitems, rfl⟩ := build_eq_ok hq
  have hfilter : ∀ k ∈ Expr.nodes? (Expr.normal? d.filter), k.Fixed :=
    Expr.forall_nodes?_normal.2 fun e he => (h.filter e he).fixed
  have hhaving : ∀ k ∈ Expr.nodes? (Expr.normal? d.having), k.Fixed :=
    Expr.forall_nodes?_normal.2 fun e he => (h.having e he).fixed
  have hsome : SelectItem.normals d.items ≠ [] := by
    rw [SelectItem.normals_eq]
    exact List.map_eq_nil_iff.not.2 hitems
  rw [Query.normal, Query.nodes, Body.normal, Body.nodes, Select.normal, Select.nodes,
    NamedWindow.normals, NamedWindow.nodesAll, List.append_nil]
  simp only [List.forall_mem_cons, List.forall_mem_append]
  refine ⟨⟨⟨⟨by simp, hcounts.1, hcounts.2⟩, trivial, rfl⟩, rfl, rfl⟩, h.bindings_fixed,
    ⟨⟨⟨trivial, trivial, rfl⟩, rfl, rfl⟩, ⟨⟨hsome, trivial, rfl⟩, rfl, rfl⟩,
      SelectItem.normals_fixed h.items, Relation.normals_fixed h.sources, hfilter, h.group_fixed,
      hhaving⟩, OrderTerm.normals_fixed h.order⟩

end SelectDraft.IsComposed

theorem Query.IsBuilt.fixed {q : Query} (h : q.IsBuilt) : ∀ k ∈ q.normal.nodes, k.Fixed := by
  induction h with
  | build hsteps _ hrun hbuild hcounts ih =>
    exact (SelectDraft.IsComposed.empty.run hsteps ih hrun).build hbuild hcounts

/-- The text of a query that is built step by step is accepted unless it is nested too deeply, and
the tree that is read prints the same text, in every layout. -/
theorem Query.IsBuilt.parse_print {q : Query} (h : q.IsBuilt) (o : Layout) :
    (∃ q', Query.parse (q.print o) = .ok q' ∧ ∀ o', q'.print o' = q.print o') ∨
      TooDeep (Query.parse (q.print o)) := by
  have hread := Query.readsBack_of_fixed h.fixed o
  rw [q.print_normal o] at hread
  rcases hread with hok | hdeep
  · exact .inl ⟨q.normal, hok, fun o' => q.print_normal o'⟩
  · exact .inr hdeep

/-- A count past the largest integer is printed as the digits of an exact number, and no count is
read from those. -/
example :
    let text (n : Nat) : Option String := do
      let d ← [.items [.expr .null none], .limit n].foldlM SelectDraft.step? .empty
      let q ← d.build.toOption
      return q.print {}
    let accepted (n : Nat) := ((text n).bind fun t => (Query.parse t).toOption).isSome
    accepted Token.maxInteger = true ∧ accepted (Token.maxInteger + 1) = false := by
  decide +kernel

end Sql
