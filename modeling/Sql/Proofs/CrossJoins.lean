import Sql.Proofs.Keys
import Sql.Proofs.Schemas
import Sql.Resolve.Tree

/-! A list of relations and its cross joins. However the joins are bracketed, each relation sees the
same columns of those before it, and the relations have to have different names. -/
namespace Sql

namespace Schema

variable {l m r : Schema} {before names : List Name} {n : Name}

/-! ### Putting schemas next to each other -/

theorem any_addRelation (before : List Name) (m n : Name) :
    (addRelation before m).any (·.same n) = (before.any (·.same n) || m.same n) := by
  unfold addRelation
  split
  · rename_i hm
    obtain ⟨k, hk, hkm⟩ := List.any_eq_true.1 hm
    -- Where `m` is left out, a name like it is there already.
    cases hmn : m.same n with
    | false => simp
    | true =>
      have hkeys : k.keys = n.keys := (Name.same_iff.1 hkm).trans (Name.same_iff.1 hmn)
      simpa using ⟨k, hk, Name.same_iff.2 hkeys⟩
  · simp

/-- The names are still there, in one spelling each. -/
theorem any_foldl_addRelation (before names : List Name) (n : Name) :
    (names.foldl addRelation before).any (·.same n) =
      (before.any (·.same n) || names.any (·.same n)) := by
  induction names generalizing before with
  | nil => simp
  | cons m names ih => rw [List.foldl_cons, ih, any_addRelation, List.any_cons, Bool.or_assoc]

theorem addRelation_of_any (h : before.any (·.same n) = true) : addRelation before n = before :=
  if_pos h

theorem addRelation_of_not_any (h : before.any (·.same n) = false) :
    addRelation before n = before ++ [n] :=
  if_neg (by simp [h])

/-- Adding names one by one, it does not matter whether repeated ones were left out before. -/
theorem foldl_addRelation_foldl (before names more : List Name) :
    (more.foldl addRelation names).foldl addRelation before =
      more.foldl addRelation (names.foldl addRelation before) := by
  induction more generalizing names with
  | nil => rfl
  | cons n more ih =>
    have hn : (addRelation names n).foldl addRelation before =
        addRelation (names.foldl addRelation before) n := by
      cases h : names.any (·.same n) with
      | true =>
        rw [addRelation_of_any h, addRelation_of_any]
        rw [any_foldl_addRelation, h, Bool.or_true]
      | false => rw [addRelation_of_not_any h, List.foldl_append, List.foldl_cons, List.foldl_nil]
    rw [List.foldl_cons, ih, hn, List.foldl_cons]

theorem append_assoc (l m r : Schema) : (l.append m).append r = l.append (m.append r) := by
  simp only [append, List.append_assoc, foldl_addRelation_foldl]

/-! ### Different names -/

theorem disjoint_iff_left :
    l.Disjoint r ↔ ∀ n ∈ r.relations, l.relations.any (·.same n) = false := by
  simp only [Disjoint, List.any_eq_false, Bool.not_eq_true]
  exact ⟨fun h n hn m hm => h m hm n hn, fun h m hm n hn => h n hn m hm⟩

theorem disjoint_iff_right :
    l.Disjoint r ↔ ∀ m ∈ l.relations, r.relations.any (·.same m) = false := by
  have hsymm (m n : Name) : m.same n = n.same m := by
    rw [Bool.eq_iff_iff, Name.same_iff, Name.same_iff, eq_comm]
  simp only [Disjoint, List.any_eq_false, Bool.not_eq_true]
  exact ⟨fun h m hm n hn => hsymm n m ▸ h m hm n hn, fun h m hm n hn => hsymm n m ▸ h m hm n hn⟩

theorem disjoint_append_left : (l.append m).Disjoint r ↔ l.Disjoint r ∧ m.Disjoint r := by
  simp only [disjoint_iff_left, append, any_foldl_addRelation, Bool.or_eq_false_iff]
  exact forall₂_and

theorem disjoint_append_right : l.Disjoint (m.append r) ↔ l.Disjoint m ∧ l.Disjoint r := by
  simp only [disjoint_iff_right, append, any_foldl_addRelation, Bool.or_eq_false_iff]
  exact forall₂_and

theorem checkDisjoint_eq_ok : l.checkDisjoint r = .ok () ↔ l.Disjoint r := by
  refine ⟨l.checkDisjoint_yields r (), fun h => ?_⟩
  have hnone : (r.relations.find? fun n => l.relations.any (·.same n)) = none :=
    List.find?_eq_none.2 fun n hn => by simp [disjoint_iff_left.1 h n hn]
  rw [checkDisjoint, hnone]

end Schema

/-- What stands around a tree, then one schema and then another. -/
theorem Context.beside_beside (ctx : Context) (s t : Schema) :
    (ctx.beside s).beside t = ctx.beside (s.append t) := by
  obtain ⟨lookup, options, bindings, outer⟩ := ctx
  cases outer with
  | none => rfl
  | some outer => simp only [beside, withOuter, Schema.append_assoc]

namespace Relation

variable {ctx : Context} {source s : Schema}

theorem resolveAll_cons (r : Relation) (rs : List Relation) :
    resolveAll ctx source (r :: rs) = .ok s ↔
      ∃ t, r.resolve (ctx.beside source) = .ok t ∧ source.Disjoint t ∧
        resolveAll ctx (source.append t) rs = .ok s := by
  simp only [resolveAll, bind_eq_ok_iff, ← Schema.checkDisjoint_eq_ok]
  exact ⟨fun ⟨t, ht, _, hd, h⟩ => ⟨t, ht, hd, h⟩, fun ⟨t, ht, hd, h⟩ => ⟨t, ht, (), hd, h⟩⟩

theorem resolveAll_append (rs more : List Relation) :
    resolveAll ctx source (rs ++ more) = resolveAll ctx source rs >>= (resolveAll ctx · more) := by
  induction rs generalizing source with
  | nil => rfl
  | cons r rs ih => simp only [List.cons_append, resolveAll, ih, bind_assoc]

/-- A cross join is two relations side by side, the right one of which sees the left one. -/
theorem resolve_cross (l r : Relation) :
    (join l r .cross .absent).resolve ctx = .ok s ↔
      ∃ t u, l.resolve ctx = .ok t ∧ r.resolve (ctx.beside t) = .ok u ∧ t.Disjoint u ∧
        t.append u = s := by
  simp only [resolve, bind_eq_ok_iff, ← Schema.checkDisjoint_eq_ok, Except.ok.injEq, pure,
    Except.pure]
  exact ⟨fun ⟨t, ht, u, hu, _, hd, h⟩ => ⟨t, u, ht, hu, hd, h⟩,
    fun ⟨t, u, ht, hu, hd, h⟩ => ⟨t, ht, u, hu, (), hd, h⟩⟩

end Relation

/-- Relations in a row, with brackets that say which of them are joined first. -/
inductive Bracketing where
  | leaf (relation : Relation)
  | node (left right : Bracketing)

namespace Bracketing

/-- The relations without the brackets. -/
def leaves : Bracketing → List Relation
  | leaf r => [r]
  | node l r => l.leaves ++ r.leaves

def crossJoin : Bracketing → Relation
  | leaf r => r
  | node l r => .join l.crossJoin r.crossJoin .cross .absent

/-- Behind any source, the list of the relations has the columns of their joins. -/
theorem resolveAll_leaves (ctx : Context) (t : Bracketing) (source s : Schema) :
    Relation.resolveAll ctx source t.leaves = .ok s ↔
      Relation.resolveAll ctx source [t.crossJoin] = .ok s := by
  induction t generalizing source s with
  | leaf r => rfl
  | node l r ihl ihr =>
    simp only [leaves, crossJoin, Relation.resolveAll_append, bind_eq_ok_iff, ihl, ihr,
      Relation.resolveAll_cons, Relation.resolve_cross, Context.beside_beside]
    simp only [Relation.resolveAll, Except.ok.injEq]
    constructor
    · rintro ⟨_, ⟨t, ht, hd, rfl⟩, u, hu, hdu, rfl⟩
      obtain ⟨hsu, htu⟩ := Schema.disjoint_append_left.1 hdu
      exact ⟨_, ⟨t, u, ht, hu, htu, rfl⟩, Schema.disjoint_append_right.2 ⟨hd, hsu⟩,
        (Schema.append_assoc ..).symm⟩
    · rintro ⟨_, ⟨t, u, ht, hu, htu, rfl⟩, hd, rfl⟩
      obtain ⟨hst, hsu⟩ := Schema.disjoint_append_right.1 hd
      exact ⟨_, ⟨t, ht, hst, rfl⟩, u, hu, Schema.disjoint_append_left.2 ⟨hsu, htu⟩,
        Schema.append_assoc ..⟩

end Bracketing

/-- A selection from a list of relations has the same columns as the selection from any cross join
of them in that order, or neither of the two can be resolved. -/
theorem Select.resolve_crossJoin (ctx : Context) (select : Select) (t : Bracketing) :
    (Select.resolve ctx { select with sources := t.leaves }).toOption =
      (Select.resolve ctx { select with sources := [t.crossJoin] }).toOption := by
  rw [toOption_eq_iff]
  intro s
  simp only [Select.resolve, bind_eq_ok_iff, t.resolveAll_leaves]

/-- `SELECT * FROM "t" CROSS JOIN (UNNEST("a") CROSS JOIN LATERAL (SELECT "b"))`, where `"a"` and
`"b"` are columns of `"t"`. -/
example :
    let column (x : String) : Expr := .column (.single (.quoted x))
    let select (items : List SelectItem) (sources : List Relation) : Select :=
      ⟨none, items, sources, none, none, none, []⟩
    let inner : Query := .ofBody (.select (select [.expr (column "b") none] []))
    let t : Bracketing := .node (.leaf (.table (.single (.quoted "t")) none))
      (.node (.leaf (.unnest [column "a"] false)) (.leaf (.lateral inner)))
    let columns : Schema := .ofFields
      [.named (.quoted "a") (.array .bigint), .named (.quoted "b") .boolean]
    let ctx := Context.of (fun _ => some columns) {}
    let resolved : Schema := .ofFields
      (columns.fields ++ [.named (.plain "_col0") .bigint, .named (.quoted "b") .boolean])
    (select [.star none []] t.leaves).resolve ctx = .ok resolved ∧
      (select [.star none []] [t.crossJoin]).resolve ctx = .ok resolved :=
  ⟨by cbv, by cbv⟩

end Sql
