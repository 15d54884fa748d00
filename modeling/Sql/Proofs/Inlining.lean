import Sql.Catalog
import Sql.Proofs.Schemas
import Sql.Proofs.Simulation

/-! A common table expression and its query in the place of every reference to it. Binding the name
and looking it up gives the same schema as resolving the derived table wherever it stands, since
neither sees the columns around it. -/
namespace Sql

/-- Does the name refer to what is bound to the identifier? -/
def Name.refersTo (n : Name) (x : Ident) : Bool := n.qualifier.isEmpty && x.same n.base

theorem Name.refersTo_iff {n : Name} {x : Ident} :
    n.refersTo x = true ↔ n.qualifier = [] ∧ x.same n.base := by
  simp [refersTo]

/-- The derived table `(query) AS name (columns)`. -/
def Cte.derived (c : Cte) : Relation := .renamed (.query c.query) c.name c.columns

/-- The derived table in the place of a reference to the common table expression; any other table
stands for itself. -/
def Cte.standIn (c : Cte) (n : Name) (known : Option Schema) : Relation :=
  if n.refersTo c.name then c.derived else .table n known

namespace Query

/-- The query behind a `WITH` clause of one entry. -/
def withCte (c : Cte) (b : Query) : Query := { b with bindings := some ⟨false, [c]⟩ }

/-- The query with the derived table in the place of every reference. -/
def inline (c : Cte) (b : Query) : Query := b.mapTables c.standIn

end Query

/-- Neither a `WITH` clause nor a table as the body of a query, and a reference to the bound name
spells it as it is bound. -/
def Node.isInlinable (x : Ident) : Node → Bool
  | .bindings _ | .body (.table _) => false
  | .relation (.table n _) => !n.refersTo x || n = .single x
  | _ => true

namespace Cte

variable {ctx : Context} {c : Cte}

/-- The derived table does not see the columns around it. -/
theorem resolve_derived (ctx : Context) (c : Cte) (outer : Option Schema) :
    c.derived.resolve { ctx with outer } = c.derived.resolve ctx := by
  simp only [derived, Relation.resolve]
  rfl

/-- Binding one name: the schema of the derived table is bound, unless fields repeat in it. -/
theorem bind_single (ctx : Context) (c : Cte) :
    With.bind ctx ⟨false, [c]⟩ = do
      let schema ← c.derived.resolve ctx
      return ctx.bind c.name (← Schema.empty.appendStrict schema) := by
  obtain ⟨x, columns, query⟩ := c
  simp only [With.bind, bindAll, derived, Relation.resolve, bind_assoc, pure_bind]
  rfl

/-- A reference by its own name leaves the derived table as it is. -/
theorem withSource_derived (ctx : Context) (c : Cte) :
    Yields (fun s => s.withSource (.single c.name) = s) (c.derived.resolve ctx) := by
  simp only [derived, Relation.resolve]
  exact .skip fun schema => .skip fun fields => .ok (Schema.withSource_withSource _ _ _)

/-- What is bound is what the derived table resolves to. -/
theorem bind_single_yields (ctx : Context) (c : Cte) :
    Yields (fun bound => ∃ s, bound = ctx.bind c.name s ∧ c.derived.resolve ctx = .ok s)
      (With.bind ctx ⟨false, [c]⟩) := by
  rw [bind_single]
  refine Yields.bind (fun s hs => hs) fun s (hs : c.derived.resolve ctx = .ok s) => ?_
  have hstrict := s.appendStrict_yields (.single c.name)
  rw [withSource_derived ctx c s hs] at hstrict
  exact hstrict.map fun t ht => ⟨s, by rw [ht], hs⟩

/-- The context that binds the name and the one that does not, under the same columns. -/
def Inlines (c : Cte) (ctx : Context) (s : Schema) (bound inlined : Context) : Prop :=
  ∃ outer, bound = { ctx.bind c.name s with outer } ∧ inlined = { ctx with outer }

/-- A reference to the bound name and the derived table in its place have the same schema. -/
theorem inlines_simulates {s : Schema} {parts : List Node}
    (hparts : ∀ part ∈ parts, part.isInlinable c.name = true)
    (hs : c.derived.resolve ctx = .ok s) :
    Simulates (fun _ => False) c.standIn parts (c.Inlines ctx s) where
  outer := by
    rintro _ _ ⟨outer, rfl, rfl⟩
    rfl
  around := by
    rintro _ _ ⟨_, rfl, rfl⟩ outer
    exact ⟨outer, rfl, rfl⟩
  relation := by
    rintro _ _ ⟨outer, rfl, rfl⟩ n known hn
    change Refines _ Eq ((ctx.bind c.name s).table n known) _
    by_cases hx : n.refersTo c.name = true
    · have htable : (ctx.bind c.name s).table n known = .ok (s.withSource n) := by
        rw [Context.table_bind, if_pos (Name.refersTo_iff.1 hx)]
      obtain rfl : n = .single c.name := by
        simpa [Node.isInlinable, hx] using hparts _ hn
      rw [htable, withSource_derived ctx c s hs, standIn, if_pos hx, resolve_derived, hs]
      exact .refl _
    · have htable : (ctx.bind c.name s).table n known = ctx.table n known := by
        rw [Context.table_bind, if_neg (mt Name.refersTo_iff.2 hx)]
      rw [htable, standIn, if_neg hx]
      exact .refl _
  body := by
    intro _ _ _ n hn
    cases hparts _ hn
  bind := by
    intro _ _ _ w hw
    cases hparts _ hw

end Cte

namespace Query

variable {c : Cte} {b : Query} {ctx bound : Context}

/-- A query without a `WITH` clause is resolved where the name is bound. -/
theorem resolve_withCte (hc : With.bind ctx ⟨false, [c]⟩ = .ok bound) (hb : b.bindings = none) :
    (b.withCte c).resolve ctx = b.resolve bound := by
  obtain ⟨bindings, body, order, offset, limit⟩ := b
  obtain rfl : bindings = none := hb
  simp only [withCte, resolve, hc]
  rfl

theorem bindings_eq_none {x : Ident} (hb : ∀ part ∈ b.nodes, part.isInlinable x = true) :
    b.bindings = none := by
  obtain ⟨bindings, body, order, offset, limit⟩ := b
  cases bindings with
  | none => rfl
  | some w =>
    obtain ⟨recursive, entries⟩ := w
    cases hb (.bindings ⟨recursive, entries⟩) (by simp [nodes, With.nodes?, With.nodes])

/-- A query behind a common table expression that resolves, and the query with the derived table in
the place of every reference to it, at any depth, have the same schema or the same error. -/
theorem resolve_inline (hc : With.bind ctx ⟨false, [c]⟩ = .ok bound)
    (hb : ∀ part ∈ b.nodes, part.isInlinable c.name = true) :
    (b.withCte c).resolve ctx = (b.inline c).resolve ctx := by
  rw [resolve_withCte hc (bindings_eq_none hb)]
  obtain ⟨s, rfl, hs⟩ := Cte.bind_single_yields ctx c bound hc
  have sim := Cte.inlines_simulates hb hs
  have related : c.Inlines ctx s (ctx.bind c.name s) ctx := ⟨ctx.outer, rfl, rfl⟩
  exact (b.resolve_mapTables sim related fun _ h => h).eq

/-- `SELECT (SELECT "k" FROM "c"), "l".* FROM "c" CROSS JOIN LATERAL (SELECT "c"."k", * FROM "c" AS
"d") AS "l"` -/
def sampleReferences : Query :=
  let c := Ident.quoted "c"
  let k := Ident.quoted "k"
  let l := Ident.quoted "l"
  let table : Relation := .table (.single c) none
  let scalar : Query := .ofBody (.select
    ⟨none, [.expr (.column (.single k)) none], [table], none, none, none, []⟩)
  let lateral : Query := .ofBody (.select
    ⟨none, [.expr (.column ⟨[c], k⟩) none, .star none []], [.renamed table (.quoted "d") []], none,
      none, none, []⟩)
  .ofBody (.select
    ⟨none, [.expr (.subquery scalar) none, .star (some (.single l)) []],
      [.join table (.renamed (.lateral lateral) l []) .cross .absent], none, none, none, []⟩)

/-- References behind `WITH "c" ("k") AS (TABLE "t")`: in a scalar subquery, in a join and behind
another name inside a lateral subquery. -/
theorem resolve_inline_sampleReferences :
    let t := Name.single (.quoted "t")
    let k := Ident.quoted "k"
    let c : Cte := ⟨.quoted "c", [k], .ofBody (.table t)⟩
    let b := sampleReferences
    let ctx := Context.of (Catalog.empty.add t [(.quoted "a", .bigint)]).lookup? {}
    let s := Schema.withSource (.ofFields [.named k .bigint]) (.single (.quoted "c"))
    With.bind ctx ⟨false, [c]⟩ = .ok (ctx.bind (.quoted "c") s) ∧
      (∀ part ∈ b.nodes, part.isInlinable c.name = true) ∧
      (b.withCte c).resolve ctx =
        .ok (.ofFields [.anonymous .bigint, .named k .bigint, .named k .bigint]) ∧
      (b.withCte c).resolve ctx = (b.inline c).resolve ctx := by
  intro t k c b ctx s
  have hc : With.bind ctx ⟨false, [c]⟩ = .ok (ctx.bind (.quoted "c") s) := rfl
  have hb : ∀ part ∈ b.nodes, part.isInlinable c.name = true := by decide
  exact ⟨hc, hb, rfl, resolve_inline hc hb⟩

end Query

end Sql
