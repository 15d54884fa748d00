import Sql.Proofs.Keys
import Sql.Proofs.Simulation

/-! The result of a query depends on nothing but the tables that it names. -/
namespace Sql

/-- The same answers about the named tables: the same base table, and the same binding of a name
that has one part. -/
structure Context.Agrees (names : List Name) (ctx ctx' : Context) : Prop where
  options : ctx.options = ctx'.options
  outer : ctx.outer = ctx'.outer
  lookup : ∀ n ∈ names, ctx.lookup n = ctx'.lookup n
  binding : ∀ n ∈ names, n.qualifier = [] → ctx.binding? n.base = ctx'.binding? n.base

namespace Context

variable {names : List Name} {ctx ctx' : Context}

theorem Agrees.table (h : ctx.Agrees names ctx') {n : Name} (hn : n ∈ names)
    (known : Option Schema) : ctx.table n known = ctx'.table n known := by
  unfold Context.table
  rw [h.options, h.lookup n hn]
  by_cases hq : n.qualifier = []
  · rw [h.binding n hn hq]
  · simp [hq]

theorem Agrees.follows (h : ctx.Agrees names ctx') :
    ctx.Follows (fun _ => False) names ctx' :=
  ⟨h.outer, fun _ hn known => h.table hn known ▸ .refl _⟩

/-- A binding that none of the names refers to, hidden by some bindings and hiding others. -/
theorem agrees_of_unreferenced (ctx : Context) (before after : List (Ident × Schema)) {x : Ident}
    (s : Schema) (hx : ∀ n ∈ names, n.qualifier = [] → x.same n.base = false) :
    Agrees names { ctx with bindings := before ++ (x, s) :: after }
      { ctx with bindings := before ++ after } := by
  refine ⟨rfl, rfl, fun _ _ => rfl, fun n hn hq => ?_⟩
  simp [binding?, List.find?_append, hx n hn hq]

/-- A base table whose name ends with none of the names. -/
theorem agrees_of_unrelated (ctx : Context) (c : Catalog) {table : Name}
    (columns : List (Ident × DataType)) (ht : ∀ n ∈ names, table.endsWith n.parts = false) :
    Agrees names { ctx with lookup := (c.add table columns).lookup? }
      { ctx with lookup := c.lookup? } :=
  ⟨rfl, rfl, fun n hn => Catalog.lookup?_add (ht n hn), fun _ _ _ => rfl⟩

end Context

namespace Query

theorem resolve_congr (q : Query) {ctx ctx' : Context} (h : ctx.Agrees q.tables ctx') :
    q.resolve ctx = q.resolve ctx' :=
  (q.resolve_refines h.follows fun _ hn => hn).eq

/-- Contexts that agree about the tables of a query give it the same schema or the same error; so a
binding that it does not refer to makes no difference, and neither does an unrelated base table. -/
theorem resolve_local (q : Query) (ctx : Context) :
    (∀ ctx', ctx.Agrees q.tables ctx' → q.resolve ctx = q.resolve ctx') ∧
    (∀ before after x s, (∀ n ∈ q.tables, n.qualifier = [] → x.same n.base = false) →
      q.resolve { ctx with bindings := before ++ (x, s) :: after } =
        q.resolve { ctx with bindings := before ++ after }) ∧
    (∀ (c : Catalog) table columns, (∀ n ∈ q.tables, table.endsWith n.parts = false) →
      q.resolve { ctx with lookup := (c.add table columns).lookup? } =
        q.resolve { ctx with lookup := c.lookup? }) := by
  refine ⟨fun ctx' h => q.resolve_congr h, ?_, ?_⟩
  · intro before after x s hx
    exact q.resolve_congr (ctx.agrees_of_unreferenced before after s hx)
  · intro c table columns ht
    exact q.resolve_congr (ctx.agrees_of_unrelated c columns ht)

/-- `WITH "x" AS (TABLE "t") SELECT (SELECT "b" FROM "s"."u") FROM "x"` -/
def sampleNested : Query :=
  let inner : Select :=
    ⟨none, [.expr (.column (.single (.quoted "b"))) none],
      [.table ⟨[.quoted "s"], .quoted "u"⟩ none], none, none, none, []⟩
  let outer : Select :=
    ⟨none, [.expr (.subquery (.ofBody (.select inner))) none],
      [.table (.single (.quoted "x")) none], none, none, none, []⟩
  let entry : Cte := ⟨.quoted "x", [], .ofBody (.table (.single (.quoted "t")))⟩
  ⟨some ⟨false, [entry]⟩, .select outer, [], none, none⟩

def sampleCatalog : Catalog :=
  (Catalog.empty.add (.single (.quoted "t")) [(.quoted "a", .bigint)]).add
    ⟨[.quoted "s"], .quoted "u"⟩ [(.quoted "b", .boolean)]

/-- A binding `"u"` and a base table `"u"."b"` are unrelated to `"s"."u"`. -/
theorem resolve_local_sampleNested :
    let q := sampleNested
    let ctx := Context.of sampleCatalog.lookup? {}
    let u := Ident.quoted "u"
    let table : Name := ⟨[.quoted "u"], .quoted "b"⟩
    q.resolve ctx = .ok (.ofFields [.anonymous .boolean]) ∧
    (ctx.Agrees q.tables (ctx.bind u .empty) ∧ q.resolve ctx = q.resolve (ctx.bind u .empty)) ∧
    ((∀ n ∈ q.tables, n.qualifier = [] → u.same n.base = false) ∧
      q.resolve { ctx with bindings := [] ++ (u, .empty) :: [] } =
        q.resolve { ctx with bindings := [] ++ [] }) ∧
    (∀ n ∈ q.tables, table.endsWith n.parts = false) ∧
      q.resolve { ctx with lookup := (sampleCatalog.add table []).lookup? } =
        q.resolve { ctx with lookup := sampleCatalog.lookup? } := by
  intro q ctx u table
  have agrees : ctx.Agrees q.tables (ctx.bind u .empty) := ⟨rfl, rfl, fun _ _ => rfl, by decide⟩
  have unreferenced : ∀ n ∈ q.tables, n.qualifier = [] → u.same n.base = false := by decide
  have unrelated : ∀ n ∈ q.tables, table.endsWith n.parts = false := by decide
  exact ⟨rfl, ⟨agrees, (resolve_local q ctx).1 _ agrees⟩,
    ⟨unreferenced, (resolve_local q ctx).2.1 [] [] u .empty unreferenced⟩,
    unrelated, (resolve_local q ctx).2.2 sampleCatalog table [] unrelated⟩

end Query

end Sql
