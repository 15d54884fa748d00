import Sql.Proofs.Schemas
import Sql.Resolve.Tree

/-! Every field of a resolved schema is attributed to a relation that the schema lists, if to any,
and no relation is listed twice. -/
namespace Sql

/-- Each relation is listed once, and the sources of all fields are listed. -/
structure Schema.WellScoped (s : Schema) : Prop where
  distinct : s.relations.Pairwise fun m n => m.same n = false
  sources : ∀ f ∈ s.fields, ∀ n ∈ f.source, n ∈ s.relations

/-- Fields that belong to no relation. -/
def Field.AllFree (fields : List Field) : Prop := ∀ f ∈ fields, f.source = none

namespace Schema

variable {l r : Schema} {fields : List Field}

theorem wellScoped_ofFields (h : Field.AllFree fields) : (ofFields fields).WellScoped := by
  refine ⟨.nil, fun f hf n hn => ?_⟩
  rw [h f hf] at hn
  cases hn

theorem wellScoped_withSource (s : Schema) (n : Name) : (s.withSource n).WellScoped := by
  refine ⟨List.pairwise_singleton _ _, fun f hf m hm => ?_⟩
  obtain ⟨g, -, rfl⟩ := List.mem_map.1 hf
  cases hm
  exact List.mem_singleton_self n

theorem allFree_generated (types : List DataType) : Field.AllFree (generated types) := by
  intro f hf
  obtain ⟨x, -, rfl⟩ := List.mem_map.1 hf
  rfl

/-! ### Joins -/

/-- The two sides keep their relations, and every field is free or comes from one of them. -/
theorem WellScoped.join (hl : l.WellScoped) (hr : r.WellScoped) (hd : l.Disjoint r)
    (hfields : ∀ f ∈ fields, f.source = none ∨ f ∈ l.fields ∨ f ∈ r.fields) :
    (⟨fields, l.relations ++ r.relations⟩ : Schema).WellScoped := by
  refine ⟨List.pairwise_append.2 ⟨hl.distinct, hr.distinct, hd⟩, fun f hf n hn => ?_⟩
  rcases hfields f hf with hfree | hmem | hmem
  · rw [hfree] at hn
    cases hn
  · exact List.mem_append_left _ (hl.sources f hmem n hn)
  · exact List.mem_append_right _ (hr.sources f hmem n hn)

theorem WellScoped.append (hl : l.WellScoped) (hr : r.WellScoped) (hd : l.Disjoint r) :
    (l.append r).WellScoped := by
  have hall := List.pairwise_append.2 ⟨hl.distinct, hr.distinct, hd⟩
  rw [Schema.append, foldl_addRelation hall]
  exact hl.join hr hd fun f hf => .inr (List.mem_append.1 hf)

theorem sharedColumn_free (l r : Schema) (x : Ident) :
    Yields (fun shared => shared.field.source = none) (l.sharedColumn r x) := by
  refine .skip fun (i, f) => .skip fun (j, g) => ?_
  dsimp only
  split
  · exact .ok rfl
  · exact .error _

theorem WellScoped.coalesce (hl : l.WellScoped) (hr : r.WellScoped) (hd : l.Disjoint r)
    (names : List Ident) : Yields WellScoped (l.coalesce r names) := by
  have hall := List.pairwise_append.2 ⟨hl.distinct, hr.distinct, hd⟩
  refine (Yields.mapM (P := fun _ => True) (fun x _ => sharedColumn_free l r x) names
    fun _ _ => trivial).bind fun shared hshared => .ok ?_
  rw [of_eq hall]
  refine hl.join hr hd fun f hf => ?_
  rcases List.mem_append.1 hf with hf | hf
  · rcases List.mem_append.1 hf with hf | hf
    · obtain ⟨c, hc, rfl⟩ := List.mem_map.1 hf
      exact .inl (hshared c hc)
    · exact .inr (.inl (mem_of_mem_except hf))
  · exact .inr (.inr (mem_of_mem_except hf))

theorem WellScoped.naturalJoin (hl : l.WellScoped) (hr : r.WellScoped) (hd : l.Disjoint r) :
    Yields WellScoped (l.naturalJoin r) := by
  unfold Schema.naturalJoin
  split
  · exact .ok (hl.append hr hd)
  · exact hl.coalesce hr hd _

/-! ### Set operations -/

theorem unify_free (position : Nat) (fs gs : List Field) :
    Yields Field.AllFree (unify position fs gs) := by
  induction fs generalizing position gs with
  | nil => exact .ok nofun
  | cons f fs ih =>
    cases gs with
    | nil => exact .ok nofun
    | cons g gs =>
      rw [unify]
      split
      · refine (ih (position + 1) gs).map fun rest hrest => ?_
        exact List.forall_mem_cons.2 ⟨rfl, hrest⟩
      · exact .error _

theorem setOperation_wellScoped (l r : Schema) : Yields WellScoped (l.setOperation r) := by
  unfold setOperation
  split
  · exact (unify_free 0 l.fields r.fields).map fun _ h => wellScoped_ofFields h
  · exact .error _

end Schema

/-- Whatever supplies a table, its fields are attributed to the name in the tree. -/
theorem Context.table_wellScoped (ctx : Context) (n : Name) (known : Option Schema) :
    Yields Schema.WellScoped (ctx.table n known) := by
  unfold Context.table
  extract_lets bound
  split
  · exact .ok (Schema.wellScoped_withSource _ n)
  · split
    · exact .ok ⟨List.pairwise_singleton _ _, nofun⟩
    · exact .error _

theorem Select.resolve_wellScoped (ctx : Context) (s : Select) :
    Yields Schema.WellScoped (s.resolve ctx) := by
  cases s
  simp only [Select.resolve]
  refine .skip fun source => .skip fun fields => .ok (Schema.wellScoped_ofFields fun f hf => ?_)
  obtain ⟨g, -, rfl⟩ := List.mem_map.1 hf
  rfl

theorem SetOperation.resolve_wellScoped (ctx : Context) (o : SetOperation) :
    Yields Schema.WellScoped (o.resolve ctx) := by
  cases o
  simp only [SetOperation.resolve]
  exact .skip fun left => .skip fun right => left.setOperation_wellScoped right

mutual

theorem Relation.resolve_wellScoped (ctx : Context) :
    (r : Relation) → Yields Schema.WellScoped (r.resolve ctx)
  | .table n known => ctx.table_wellScoped n known
  | .renamed r x columns => by
    simp only [Relation.resolve]
    exact .skip fun schema => .skip fun fields => .ok (Schema.wellScoped_withSource _ _)
  | .join l r _ criteria => by
    simp only [Relation.resolve]
    refine (l.resolve_wellScoped ctx).bind fun left hl => ?_
    refine (r.resolve_wellScoped (ctx.beside left)).bind fun right hr => ?_
    refine (left.checkDisjoint_yields right).bind fun _ hd => ?_
    cases criteria with
    | condition | absent => exact .ok (hl.append hr hd)
    | columns names => exact hl.coalesce hr hd names
    | natural => exact hl.naturalJoin hr hd
  | .setOperation o => by
    simp only [Relation.resolve]
    exact o.resolve_wellScoped ctx
  | .query q => by
    simp only [Relation.resolve]
    exact q.resolve_wellScoped ctx.withoutOuter
  | .values rows => by
    simp only [Relation.resolve]
    exact .skip fun types => .ok (Schema.wellScoped_ofFields (Schema.allFree_generated types))
  | .unnest args ordinality => by
    simp only [Relation.resolve]
    refine .skip fun types => .ok (Schema.wellScoped_ofFields ?_)
    refine List.forall_mem_append.2 ⟨Schema.allFree_generated _, ?_⟩
    cases ordinality
    · exact nofun
    · exact List.forall_mem_singleton.2 rfl
  | .lateral q => by
    simp only [Relation.resolve]
    exact q.resolve_wellScoped ctx
  | .sample r _ _ => by
    simp only [Relation.resolve]
    exact r.resolve_wellScoped ctx
termination_by structural r => r

theorem Query.resolve_wellScoped (ctx : Context) :
    (q : Query) → Yields Schema.WellScoped (q.resolve ctx)
  | ⟨none, body, _, _, _⟩ => by
    simp only [Query.resolve]
    exact body.resolve_wellScoped ctx
  | ⟨some bindings, body, _, _, _⟩ => by
    simp only [Query.resolve]
    exact .skip fun inner => body.resolve_wellScoped inner
termination_by structural q => q

theorem Body.resolve_wellScoped (ctx : Context) :
    (b : Body) → Yields Schema.WellScoped (b.resolve ctx)
  | .select s => by
    simp only [Body.resolve]
    exact s.resolve_wellScoped ctx
  | .table n => ctx.table_wellScoped n none
  | .values rows => by
    simp only [Body.resolve]
    exact .skip fun types => .ok (Schema.wellScoped_ofFields (Schema.allFree_generated types))
  | .setOperation o => by
    simp only [Body.resolve]
    exact o.resolve_wellScoped ctx
  | .nested q => by
    simp only [Body.resolve]
    exact q.resolve_wellScoped ctx
termination_by structural b => b

end

namespace Schema

/-- Whatever the base tables, the bindings and the columns around a tree are, the schema of a
relation or a query lists every relation once, and every source of a field as it is spelled. -/
theorem wellScoped_of_resolve (ctx : Context) :
    (∀ (r : Relation) (s : Schema), r.resolve ctx = .ok s → s.WellScoped) ∧
      ∀ (q : Query) (s : Schema), q.resolve ctx = .ok s → s.WellScoped :=
  ⟨fun r => r.resolve_wellScoped ctx, fun q => q.resolve_wellScoped ctx⟩

/-- `"t" JOIN "t" AS "v" USING ("a")` and `TABLE "t"`, where the only base table attributes its
fields to a relation that it does not list and lists another one twice. -/
theorem wellScoped_of_resolve_sample :
    let t := Name.single (.quoted "t")
    let v := Ident.quoted "v"
    let field (x : String) (source : Option Name) : Field := ⟨some (.quoted x), .bigint, source⟩
    let base : Schema := ⟨[field "a" (some ⟨[v], v⟩), field "b" none], [t, t]⟩
    let ctx := Context.of (fun _ => some base) {}
    let r : Relation := .join (.table t none) (.renamed (.table t none) v []) .inner
      (.columns [.quoted "a"])
    let joined : Schema :=
      ⟨[field "a" none, field "b" (some t), field "b" (some (.single v))], [t, .single v]⟩
    ¬ base.WellScoped ∧ (r.resolve ctx = .ok joined ∧ joined.WellScoped) ∧
      (Query.ofBody (.table t)).resolve ctx = .ok (base.withSource t) ∧
      (base.withSource t).WellScoped := by
  intro t v field base ctx r joined
  have hbase : ¬ base.WellScoped := by
    intro h
    have hsame : t.same t = false := List.rel_of_pairwise_cons h.distinct List.mem_cons_self
    cases hsame
  have hr : r.resolve ctx = .ok joined := rfl
  have hq : (Query.ofBody (.table t)).resolve ctx = .ok (base.withSource t) := rfl
  exact ⟨hbase, ⟨hr, (wellScoped_of_resolve ctx).1 r joined hr⟩, hq,
    (wellScoped_of_resolve ctx).2 _ _ hq⟩

end Schema

end Sql
