import Sql.Catalog
import Sql.Proofs.Simulation

/-! Tables that are found nowhere. A context that takes them for tables without columns changes
nothing about trees that can do without it. -/
namespace Sql

/-- The failure that a lenient context does not report of tables. -/
def ResolveError.IsUnknownRelation (e : ResolveError) : Prop := ∃ n, e = .unknownRelation n

namespace Context

/-- The same context, but tables that are found nowhere have no columns. -/
def lenient (ctx : Context) : Context :=
  { ctx with options := { ctx.options with allowUnknown := true } }

theorem table_lenient (ctx : Context) (n : Name) (known : Option Schema) :
    Refines ResolveError.IsUnknownRelation Eq (ctx.table n known) (ctx.lenient.table n known) := by
  have hbinding : ctx.lenient.binding? n.base = ctx.binding? n.base := rfl
  have hlookup : ctx.lenient.lookup n = ctx.lookup n := rfl
  simp only [table, hbinding, hlookup]
  split
  · exact .refl _
  -- The table is found nowhere, so that the option alone decides.
  · cases ctx.options.allowUnknown with
    | true => exact .refl _
    | false => exact .excuse ⟨n, rfl⟩ _

theorem follows_lenient (ctx : Context) (names : List Name) :
    ctx.Follows ResolveError.IsUnknownRelation names ctx.lenient :=
  ⟨rfl, fun n _ known => ctx.table_lenient n known⟩

/-- A lenient context gives every relation and every query that can be resolved without it the same
schema as before. -/
theorem lenient_conservative (ctx : Context) :
    (∀ (r : Relation) (s : Schema), r.resolve ctx = .ok s → r.resolve ctx.lenient = .ok s) ∧
      ∀ (q : Query) (s : Schema), q.resolve ctx = .ok s → q.resolve ctx.lenient = .ok s := by
  constructor
  · intro r s hs
    have h := r.resolve_refines (ctx.follows_lenient (tablesOf r.nodes)) fun _ hn => hn
    rw [hs] at h
    exact h.of_ok
  · intro q s hs
    have h := q.resolve_refines (ctx.follows_lenient q.tables) fun _ hn => hn
    rw [hs] at h
    exact h.of_ok

/-- `SELECT EXISTS (TABLE "nowhere"), * FROM "t" AS "r"` can do without the table `"nowhere"`, which
only the lenient context has. -/
theorem lenient_conservative_exists :
    let t := Name.single (.quoted "t")
    let nowhere := Name.single (.quoted "nowhere")
    let a := Ident.quoted "a"
    let ctx := Context.of (Catalog.empty.add t [(a, .bigint)]).lookup? {}
    let r : Relation := .renamed (.table t none) (.quoted "r") []
    let q : Query := .ofBody (.select ⟨none,
      [.expr (.existsQuery (.ofBody (.table nowhere))) none, .star none []], [r], none, none, none,
      []⟩)
    let schema := Schema.withSource (.ofFields [.named a .bigint]) (.single (.quoted "r"))
    let schema' := Schema.ofFields [.anonymous .boolean, .named a .bigint]
    (Relation.table nowhere none).resolve ctx = .error (.unknownRelation nowhere) ∧
      (Relation.table nowhere none).resolve ctx.lenient = .ok ⟨[], [nowhere]⟩ ∧
      (r.resolve ctx = .ok schema ∧ r.resolve ctx.lenient = .ok schema) ∧
      q.resolve ctx = .ok schema' ∧ q.resolve ctx.lenient = .ok schema' := by
  intro t nowhere a ctx r q schema schema'
  have hr : r.resolve ctx = .ok schema := rfl
  have hq : q.resolve ctx = .ok schema' := rfl
  exact ⟨rfl, rfl, ⟨hr, (lenient_conservative ctx).1 r schema hr⟩, hq,
    (lenient_conservative ctx).2 q schema' hq⟩

end Context

end Sql
