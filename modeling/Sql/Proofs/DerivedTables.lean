import Sql.Proofs.CrossJoins
import Sql.Proofs.Sources

/-! Queries as relations. A query hides the relations inside it, unless it is nothing but a table,
which it lets through under its name. -/
namespace Sql

mutual

/-- The table that a query is, if it is nothing else. -/
def Query.onlyTable? : Query → Option Name
  | ⟨_, body, _, _, _⟩ => body.onlyTable?
termination_by structural q => q

def Body.onlyTable? : Body → Option Name
  | .table n => some n
  | .nested q => q.onlyTable?
  | .select _ | .values _ | .setOperation _ => none
termination_by structural b => b

end

/-- All fields are attributed to the one relation that can be seen, or to none if there is none. -/
structure Schema.Shows (shown : Option Name) (s : Schema) : Prop where
  relations : s.relations = shown.toList
  sources : ∀ f ∈ s.fields, f.source = shown

namespace Schema

variable {fields : List Field}

theorem shows_ofFields (h : Field.AllFree fields) : (ofFields fields).Shows none := ⟨rfl, h⟩

theorem shows_withSource (s : Schema) (n : Name) : (s.withSource n).Shows (some n) := by
  refine ⟨rfl, ?_⟩
  intro f hf
  obtain ⟨g, -, rfl⟩ := List.mem_map.1 hf
  rfl

end Schema

theorem Context.table_shows (ctx : Context) (n : Name) (known : Option Schema) :
    Yields (Schema.Shows (some n)) (ctx.table n known) := by
  unfold Context.table
  extract_lets bound
  split
  · exact .ok (Schema.shows_withSource _ n)
  · split
    · exact .ok ⟨rfl, nofun⟩
    · exact .error _

theorem Select.resolve_shows (ctx : Context) (s : Select) :
    Yields (Schema.Shows none) (s.resolve ctx) := by
  cases s
  simp only [Select.resolve]
  refine .skip fun source => .skip fun fields => .ok (Schema.shows_ofFields ?_)
  intro f hf
  obtain ⟨g, -, rfl⟩ := List.mem_map.1 hf
  rfl

theorem SetOperation.resolve_shows (ctx : Context) (o : SetOperation) :
    Yields (Schema.Shows none) (o.resolve ctx) := by
  cases o
  simp only [SetOperation.resolve, Schema.setOperation]
  refine .skip fun left => .skip fun right => ?_
  split
  · exact (Schema.unify_free 0 left.fields right.fields).map fun _ h => Schema.shows_ofFields h
  · exact .error _

mutual

theorem Query.resolve_shows (ctx : Context) :
    (q : Query) → Yields (Schema.Shows q.onlyTable?) (q.resolve ctx)
  | ⟨none, body, _, _, _⟩ => by
    simp only [Query.resolve]
    exact body.resolve_shows ctx
  | ⟨some bindings, body, _, _, _⟩ => by
    simp only [Query.resolve]
    exact .skip fun inner => body.resolve_shows inner
termination_by structural q => q

theorem Body.resolve_shows (ctx : Context) :
    (b : Body) → Yields (Schema.Shows b.onlyTable?) (b.resolve ctx)
  | .select s => by
    simp only [Body.resolve]
    exact s.resolve_shows ctx
  | .table n => ctx.table_shows n none
  | .values rows => by
    simp only [Body.resolve]
    exact .skip fun types => .ok (Schema.shows_ofFields (Schema.allFree_generated types))
  | .setOperation o => by
    simp only [Body.resolve]
    exact o.resolve_shows ctx
  | .nested q => by
    simp only [Body.resolve]
    exact q.resolve_shows ctx
termination_by structural b => b

end

/-- A derived table shows what its query is, in every context: a table, or nothing. -/
theorem Relation.resolve_query_shows (ctx : Context) (q : Query) :
    Yields (Schema.Shows q.onlyTable?) ((Relation.query q).resolve ctx) := by
  simp only [Relation.resolve]
  exact q.resolve_shows ctx.withoutOuter

/-! ### Siblings -/

/-- The failure of relations that have the same name. -/
def ResolveError.IsDuplicateRelation (e : ResolveError) : Prop := ∃ n, e = .duplicateRelation n

namespace Schema

open ResolveError (IsDuplicateRelation)

theorem sharedField_spares (s : Schema) (x : Ident) :
    Spares IsDuplicateRelation (s.sharedField x) := by
  refine .bind ?_ fun found => ?_
  · unfold find?
    split
    · exact .ok _
    · exact .ok _
    · exact .error nofun
  · cases found with
    | none => exact .error nofun
    | some found => exact .ok _

theorem coalesce_spares (l r : Schema) (names : List Ident) :
    Spares IsDuplicateRelation (l.coalesce r names) := by
  refine (Spares.mapM (fun x => ?_) names).bind fun shared => .ok _
  refine (l.sharedField_spares x).bind fun (i, f) => (r.sharedField_spares x).bind fun (j, g) => ?_
  dsimp only
  split
  · exact .ok _
  · exact .error nofun

theorem naturalJoin_spares (l r : Schema) : Spares IsDuplicateRelation (l.naturalJoin r) := by
  unfold naturalJoin
  split
  · exact .ok _
  · exact l.coalesce_spares r _

theorem checkDisjoint_error {l r : Schema} (h : ¬ l.Disjoint r) :
    ∃ n, l.checkDisjoint r = .error (.duplicateRelation n) := by
  unfold checkDisjoint
  split
  · exact ⟨_, rfl⟩
  · rename_i hnone
    exact (h (checkDisjoint_eq_ok.1 (by rw [checkDisjoint, hnone]))).elim

end Schema

namespace Relation

variable {ctx : Context} {l r : Relation} {q : Query} {s t : Schema}

/-- Relations that can be resolved are refused as duplicates just if they share a name. -/
theorem resolve_join_duplicate (hs : l.resolve ctx = .ok s) (ht : r.resolve (ctx.beside s) = .ok t)
    (kind : JoinKind) (criteria : Criteria) :
    (∃ n, (join l r kind criteria).resolve ctx = .error (.duplicateRelation n)) ↔
      ¬ s.Disjoint t := by
  simp only [resolve]
  rw [bind_of_ok hs, bind_of_ok ht]
  by_cases hd : s.Disjoint t
  · rw [bind_of_ok (Schema.checkDisjoint_eq_ok.2 hd)]
    refine iff_of_false ?_ (not_not_intro hd)
    rintro ⟨n, hn⟩
    cases criteria with
    | condition | absent => cases hn
    | columns names => exact s.coalesce_spares t names _ hn ⟨n, rfl⟩
    | natural => exact s.naturalJoin_spares t _ hn ⟨n, rfl⟩
  · obtain ⟨n, hn⟩ := Schema.checkDisjoint_error hd
    exact iff_of_true ⟨n, bind_of_error hn⟩ hd

/-- A query is refused behind a relation just if it is nothing but a table of a name that is
taken. -/
theorem resolve_join_query (hs : l.resolve ctx = .ok s)
    (ht : (query q).resolve (ctx.beside s) = .ok t) (kind : JoinKind) (criteria : Criteria) :
    (∃ n, (join l (query q) kind criteria).resolve ctx = .error (.duplicateRelation n)) ↔
      ∃ n ∈ q.onlyTable?, s.relations.any (·.same n) = true := by
  have hshown := (resolve_query_shows (ctx.beside s) q t ht).relations
  rw [resolve_join_duplicate hs ht, Schema.disjoint_iff_left, hshown]
  simp

/-- The same in front of a relation. -/
theorem resolve_query_join (hs : (query q).resolve ctx = .ok s)
    (ht : r.resolve (ctx.beside s) = .ok t) (kind : JoinKind) (criteria : Criteria) :
    (∃ n, (join (query q) r kind criteria).resolve ctx = .error (.duplicateRelation n)) ↔
      ∃ n ∈ q.onlyTable?, t.relations.any (·.same n) = true := by
  have hshown := (resolve_query_shows ctx q s hs).relations
  rw [resolve_join_duplicate hs ht, Schema.disjoint_iff_right, hshown]
  simp

/-- `(TABLE "t") CROSS JOIN "t"` is refused, and `(SELECT * FROM "t") CROSS JOIN "t"` is not. -/
example :
    let t := Name.single (.quoted "t")
    let ctx := Context.of (fun _ => some (.ofFields [.named (.quoted "x") .bigint])) {}
    let selected : Body :=
      .select ⟨none, [.star none []], [.table t none], none, none, none, []⟩
    let field (source : Option Name) : Field := ⟨some (.quoted "x"), .bigint, source⟩
    (join (query (.ofBody (.table t))) (.table t none) .cross .absent).resolve ctx =
        .error (.duplicateRelation t) ∧
      (join (query (.ofBody selected)) (.table t none) .cross .absent).resolve ctx =
        .ok ⟨[field none, field (some t)], [t]⟩ :=
  ⟨rfl, rfl⟩

end Relation

end Sql
