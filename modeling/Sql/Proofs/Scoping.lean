import Sql.Resolve.Tree

/-! Columns seen from nested subqueries. The nearest table is searched first, and all tables around
it are searched as one, so that only the nearest table hides a column of another. -/
namespace Sql

/-- The types of the columns of a name. -/
def Schema.typesOf (s : Schema) (c : Ident) : List DataType :=
  (s.fields.filter (·.isNamed c)).map (·.type)

/-- The type of a column in the first place that knows it, which has to be the only one there. -/
def typeAmong (c : Ident) : List (List DataType) → Except ResolveError DataType
  | [] => .ok .unknown
  | [] :: places => typeAmong c places
  | [type] :: _ => .ok type
  | _ => .error (.ambiguousColumn c)

namespace Schema

variable (s t : Schema) (c : Ident)

theorem typesOf_append : (s.append t).typesOf c = s.typesOf c ++ t.typesOf c := by
  simp [typesOf, append]

theorem typesOf_withSource (n : Name) : (s.withSource n).typesOf c = s.typesOf c := by
  simp [typesOf, withSource, List.filter_map, Function.comp_def, Field.isNamed]

theorem types_matching : (s.matching c []).map (·.2.type) = s.typesOf c :=
  calc (s.matching c []).map (·.2.type)
      = ((s.fields.zipIdx.filter (·.1.isNamed c)).map (·.1)).map (·.type) := by
        simp [matching, List.filter_map, Function.comp_def, Field.answers]
    _ = ((s.fields.zipIdx.map (·.1)).filter (·.isNamed c)).map (·.type) := by
        rw [List.filter_map]; rfl
    _ = s.typesOf c := by rw [List.zipIdx_map_fst]; rfl

theorem find?_cases :
    (s.typesOf c = [] ∧ s.find? c [] = .ok none) ∨
    (∃ i f, s.typesOf c = [f.type] ∧ s.find? c [] = .ok (some (i, f))) ∨
    (∃ t u ts, s.typesOf c = t :: u :: ts ∧ s.find? c [] = .error (.ambiguousColumn c)) := by
  rw [← types_matching, find?]
  rcases s.matching c [] with - | ⟨⟨i, f⟩, - | ⟨x, xs⟩⟩
  · exact .inl ⟨rfl, rfl⟩
  · exact .inr (.inl ⟨i, f, rfl, rfl⟩)
  · exact .inr (.inr ⟨f.type, x.2.type, xs.map (·.2.type), rfl, rfl⟩)

end Schema

/-- A column is looked for near the expression and then around it. -/
theorem Expr.infer_column (s : Scope) (c : Ident) :
    (Expr.column (.single c)).infer s =
      typeAmong c ((s.near :: s.outer.toList).map (·.typesOf c)) := by
  simp only [Expr.infer, Scope.column?, Name.single, Name.parts, List.nil_append, Scope.readings,
    List.map_nil, List.flatMap_cons, List.flatMap_nil, List.append_nil]
  generalize s.near :: s.outer.toList = places
  induction places with
  | nil => rfl
  | cons place places ih =>
    rcases place.find?_cases c with ⟨ht, hf⟩ | ⟨i, f, ht, hf⟩ | ⟨t, u, ts, ht, hf⟩
    · simp only [List.map_cons, ht, hf, typeAmong, ← ih]
      rfl
    · simp only [List.map_cons, ht, hf, typeAmong]
      rfl
    · simp only [List.map_cons, ht, hf, typeAmong]
      rfl

/-- The type of a query as a scalar subquery. -/
def Query.value (q : Query) (ctx : Context) : Except ResolveError DataType := do
  return (← q.resolve ctx).valueType

/-- The only table of a `SELECT`, with a schema known ahead. -/
structure Level where
  table : Name
  schema : Schema

namespace Level

variable (l : Level) (ctx : Context) (e : Expr)

def select : Query :=
  .ofBody (.select ⟨none, [.expr e none], [.table l.table (some l.schema)], none, none, none, []⟩)

/-- The columns of the table as its `SELECT` sees them. -/
def source : Schema := l.schema.withSource l.table

/-- No binding stands before the schema known ahead. -/
def Unbound : Prop := l.table.qualifier = [] → ctx.binding? l.table.base = none

variable {l ctx}

theorem Unbound.table (h : l.Unbound ctx) : ctx.table l.table (some l.schema) = .ok l.source := by
  by_cases hq : l.table.qualifier = []
  · simp [Context.table, hq, h hq, source]
  · simp [Context.table, hq, source]

theorem Unbound.resolveAll (h : l.Unbound ctx) :
    Relation.resolveAll ctx .empty [.table l.table (some l.schema)] = .ok l.source := by
  have hb : (ctx.beside .empty).table l.table (some l.schema) = .ok l.source := h.table
  simp only [Relation.resolveAll, Relation.resolve, hb]
  rfl

theorem Unbound.value_select (h : l.Unbound ctx) :
    (l.select e).value ctx = e.infer (.of ctx l.source) := by
  simp only [Query.value, select, Query.ofBody, Query.resolve, Body.resolve, Select.resolve,
    h.resolveAll, SelectItem.resolveAll, SelectItem.resolve]
  cases he : e.infer (.of ctx l.source) with
  | error => simp [bind, Except.bind, he]
  | ok t =>
    have ht : (e.outputField none t).type = t := by cases e <;> rfl
    simp [bind, Except.bind, pure, Except.pure, he, Schema.ofFields, Schema.valueType, ht]

end Level

/-- The scope of a subquery with one table: all that was in sight is now around it. -/
def Scope.enter (s : Scope) (l : Level) : Scope :=
  ⟨l.source, some s.visible, s.context.map (·.withOuter s.visible)⟩

/-- The scope inside nested queries, the innermost first. -/
def Scope.inside (ctx : Context) (l : Level) : List Level → Scope
  | [] => .of ctx l.source
  | around :: levels => (inside ctx around levels).enter l

/-- Nested queries with one table each, the innermost first: the innermost one selects `e`, and each
other selects the one before it as a scalar subquery. -/
def Query.nested (e : Expr) (l : Level) : List Level → Query
  | [] => l.select e
  | around :: levels => nested (.subquery (l.select e)) around levels

namespace Scope

variable (ctx : Context) (l : Level) (levels : List Level)

theorem near_inside : (inside ctx l levels).near = l.source := by
  cases levels <;> rfl

theorem context_inside : ∃ outer, (inside ctx l levels).context = some { ctx with outer } := by
  induction levels generalizing l with
  | nil => exact ⟨ctx.outer, rfl⟩
  | cons around levels ih =>
    obtain ⟨outer, h⟩ := ih around
    refine ⟨some (inside ctx around levels).visible, ?_⟩
    simp only [inside, enter, h, Option.map_some, Context.withOuter]

theorem typesOf_visible (s : Scope) (c : Ident) :
    s.visible.typesOf c = (s.near :: s.outer.toList).flatMap (·.typesOf c) := by
  unfold visible
  cases s.outer with
  | none => simp
  | some outer => simp [Schema.typesOf_append]

/-- The columns of all levels around a query stand next to each other. -/
theorem typesOf_outer_inside (c : Ident) :
    (inside ctx l levels).outer.toList.flatMap (·.typesOf c) =
      levels.flatMap (·.schema.typesOf c) ++ ctx.outer.toList.flatMap (·.typesOf c) := by
  induction levels generalizing l with
  | nil => rfl
  | cons around levels ih =>
    have hs : around.source.typesOf c = around.schema.typesOf c := Schema.typesOf_withSource ..
    simp [inside, enter, typesOf_visible, near_inside, ih around, hs]

/-- One nesting step: a subquery with one table is typed in the scope that it enters. -/
theorem infer_subquery_select {s : Scope} (hs : s.context = some ctx) (h : l.Unbound ctx)
    (e : Expr) : (Expr.subquery (l.select e)).infer s = e.infer (s.enter l) := by
  have hl : l.Unbound (ctx.withOuter s.visible) := h
  simp only [Expr.infer, enter, hs]
  exact hl.value_select e

end Scope

/-- The item of the innermost query is typed in the scope inside all of them. -/
theorem Query.value_nested (e : Expr) (ctx : Context) (l : Level) (levels : List Level)
    (h : ∀ m ∈ l :: levels, m.Unbound ctx) :
    (nested e l levels).value ctx = e.infer (.inside ctx l levels) := by
  -- From the inside out: each query is the item of the next, so the item varies.
  induction levels generalizing e l with
  | nil => exact (h l (by simp)).value_select e
  | cons around levels ih =>
    have hl : l.Unbound ctx := h l (by simp)
    obtain ⟨outer, hs⟩ := Scope.context_inside ctx around levels
    rw [nested, ih _ _ fun m hm => h m (List.mem_cons_of_mem l hm), Scope.inside]
    exact Scope.infer_subquery_select _ l hs hl e

theorem typeAmong_toList (c : Ident) (types : List DataType) (place : Option Schema) :
    typeAmong c (types :: place.toList.map (·.typesOf c)) =
      typeAmong c [types, place.toList.flatMap (·.typesOf c)] := by
  cases place with
  | some place => simp
  | none => rcases types with - | ⟨t, - | ⟨u, ts⟩⟩ <;> rfl

/-- The innermost table comes first, and all tables around it together come second. -/
theorem Query.value_nested_column (c : Ident) (ctx : Context) (l : Level) (levels : List Level)
    (h : ∀ m ∈ l :: levels, m.Unbound ctx) :
    (nested (.column (.single c)) l levels).value ctx =
      typeAmong c [l.schema.typesOf c,
        levels.flatMap (·.schema.typesOf c) ++ ctx.outer.toList.flatMap (·.typesOf c)] := by
  rw [value_nested _ ctx l levels h, Expr.infer_column, List.map_cons, typeAmong_toList,
    Scope.typesOf_outer_inside, Scope.near_inside, Level.source, Schema.typesOf_withSource]

namespace Query

variable {c : Ident} {ctx : Context} {l level : Level} {levels before after : List Level}
  {type : DataType}

/-- The levels before the first that knows the column do not matter, but those behind it do. -/
theorem value_nested_around (h : ∀ m ∈ l :: (before ++ level :: after), m.Unbound ctx)
    (hbefore : ∀ m ∈ l :: before, m.schema.typesOf c = [])
    (hlevel : level.schema.typesOf c = [type]) :
    (nested (.column (.single c)) l (before ++ level :: after)).value ctx =
      typeAmong c [type :: (after.flatMap (·.schema.typesOf c) ++
        ctx.outer.toList.flatMap (·.typesOf c))] := by
  have hl : l.schema.typesOf c = [] := hbefore l List.mem_cons_self
  have hb : before.flatMap (·.schema.typesOf c) = [] :=
    List.flatMap_eq_nil_iff.2 fun m hm => hbefore m (List.mem_cons_of_mem l hm)
  rw [value_nested_column c ctx l _ h]
  simp [hl, hb, hlevel, typeAmong]

/-- Where `level` is the innermost level that knows a column, and knows it once, the column is that
one if no level stands before it, or if no level behind it knows the column too. -/
theorem value_nested_of_first (h : ∀ m ∈ l :: levels, m.Unbound ctx)
    (houter : ctx.outer = none) (hl : l :: levels = before ++ level :: after)
    (hbefore : ∀ m ∈ before, m.schema.typesOf c = []) (hlevel : level.schema.typesOf c = [type])
    (hafter : before = [] ∨ ∀ m ∈ after, m.schema.typesOf c = []) :
    (nested (.column (.single c)) l levels).value ctx = .ok type := by
  cases before with
  | nil =>
    obtain ⟨rfl, rfl⟩ := List.cons.inj hl
    rw [value_nested_column c ctx l levels h, hlevel]
    rfl
  | cons b before =>
    rw [List.cons_append, List.cons.injEq] at hl
    obtain ⟨rfl, rfl⟩ := hl
    have ha : after.flatMap (·.schema.typesOf c) = [] :=
      List.flatMap_eq_nil_iff.2 (hafter.resolve_left (List.cons_ne_nil l before))
    rw [value_nested_around h hbefore hlevel, ha, houter]
    rfl

/-- In all other cases the column is ambiguous, although it is known once at each of two levels. -/
theorem value_nested_ambiguous (h : ∀ m ∈ l :: (before ++ level :: after), m.Unbound ctx)
    (hbefore : ∀ m ∈ l :: before, m.schema.typesOf c = [])
    (hlevel : level.schema.typesOf c = [type])
    (hafter : ∃ m ∈ after, m.schema.typesOf c ≠ []) :
    (nested (.column (.single c)) l (before ++ level :: after)).value ctx =
      .error (.ambiguousColumn c) := by
  obtain ⟨m, hm, ht⟩ := hafter
  have ha : after.flatMap (·.schema.typesOf c) ≠ [] :=
    fun hnil => ht (List.flatMap_eq_nil_iff.1 hnil m hm)
  obtain ⟨u, us, ha⟩ := List.exists_cons_of_ne_nil ha
  rw [value_nested_around h hbefore hlevel, ha]
  rfl

/-- The same column at three levels, the innermost of which does not have it. -/
example :
    let c := Ident.quoted "c"
    let level (table column : String) (type : DataType) : Level :=
      ⟨.single (.quoted table), .ofFields [.named (.quoted column) type]⟩
    let ctx := Context.of (fun _ => none) {}
    let query := nested (.column (.single c)) (level "s1" "a" .double)
    (query [level "s2" "c" .bigint]).value ctx = .ok .bigint ∧
      (query [level "s2" "c" .bigint, level "s3" "c" .boolean]).value ctx =
        .error (.ambiguousColumn c) :=
  ⟨rfl, rfl⟩

end Query

end Sql
