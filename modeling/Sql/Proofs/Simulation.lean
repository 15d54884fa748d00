import Sql.Proofs.Answers
import Sql.Proofs.Nodes
import Sql.Proofs.Tables
import Sql.Resolve.Tree

/-! Resolution of a tree in one context and of the same tree, with other relations in the place of
its tables, in another. A context is only asked for the tables that the tree names and for the
columns around it, so where the answers of the contexts correspond, the results do. -/
namespace Sql

/-! ### Corresponding contexts -/

/-- Contexts that are related by `R` give corresponding answers about the listed parts of a tree,
the second one about the relations that `f` puts in the place of tables. They stay related whatever
columns come to stand around the tree, and whatever is bound if anything is. -/
structure Simulates (excused : ResolveError → Prop) (f : Name → Option Schema → Relation)
    (parts : List Node) (R : Context → Context → Prop) : Prop where
  outer {ctx ctx' : Context} (h : R ctx ctx') : ctx.outer = ctx'.outer
  around {ctx ctx' : Context} (h : R ctx ctx') (outer : Option Schema) :
    R { ctx with outer } { ctx' with outer }
  relation {ctx ctx' : Context} (h : R ctx ctx') {n : Name} {known : Option Schema}
    (hn : .relation (.table n known) ∈ parts) :
    Refines excused Eq (ctx.table n known) ((f n known).resolve ctx')
  body {ctx ctx' : Context} (h : R ctx ctx') {n : Name} (hn : .body (.table n) ∈ parts) :
    Refines excused Eq (ctx.table n none) (ctx'.table n none)
  bind {ctx ctx' : Context} (h : R ctx ctx') {w : With} (hw : .bindings w ∈ parts) (x : Ident)
    (s : Schema) : R (ctx.bind x s) (ctx'.bind x s)

/-- The same columns in sight, and related contexts. -/
structure Scope.Related (R : Context → Context → Prop) (s s' : Scope) : Prop where
  near : s.near = s'.near
  outer : s.outer = s'.outer
  context : Option.Rel R s.context s'.context

namespace Scope.Related

variable {R : Context → Context → Prop} {s s' : Scope}

theorem column? (h : s.Related R s') (n : Name) : s.column? n = s'.column? n := by
  unfold Scope.column?
  rw [h.near, h.outer]

theorem visible (h : s.Related R s') : s.visible = s'.visible := by
  unfold Scope.visible
  rw [h.near, h.outer]

end Scope.Related

variable {excused : ResolveError → Prop} {f : Name → Option Schema → Relation}
  {parts : List Node} {R : Context → Context → Prop}

namespace Simulates

variable {ctx ctx' : Context}

theorem beside (sim : Simulates excused f parts R) (h : R ctx ctx') (s : Schema) :
    R (ctx.beside s) (ctx'.beside s) := by
  unfold Context.beside
  rw [sim.outer h]
  exact sim.around h _

theorem bindSelf (sim : Simulates excused f parts R) (h : R ctx ctx') {w : With}
    (hw : .bindings w ∈ parts) (recursive : Bool) (x : Ident) (columns : List Ident) :
    R (ctx.bindSelf recursive x columns) (ctx'.bindSelf recursive x columns) := by
  unfold Context.bindSelf
  split
  · exact sim.bind h hw x _
  · exact h

theorem scope (sim : Simulates excused f parts R) (h : R ctx ctx') (near : Schema) :
    (Scope.of ctx near).Related R (.of ctx' near) :=
  ⟨rfl, sim.outer h, .some h⟩

end Simulates

/-! ### Corresponding results

Other relations in the place of tables leave all else as it is: the number of items, whether an
item is a row, and the name that a column gives to its field. -/

theorem Expr.length_mapTablesAll (es : List Expr) :
    (Expr.mapTablesAll f es).length = es.length := by
  induction es with
  | nil => rfl
  | cons e es ih => simp [Expr.mapTablesAll, ih]

theorem Expr.width_mapTables (e : Expr) : (e.mapTables f).width = e.width := by
  cases e with
  | row items => exact Expr.length_mapTablesAll items
  | _ => rfl

theorem Expr.unknownColumns_mapTablesAll (es : List Expr) :
    Expr.unknownColumns (Expr.mapTablesAll f es) = Expr.unknownColumns es := by
  cases es with
  | nil => rfl
  | cons e es => simp [Expr.unknownColumns, Expr.mapTablesAll, Expr.width_mapTables]

theorem Expr.outputField_mapTables (e : Expr) (name : Option Ident) (type : DataType) :
    (e.mapTables f).outputField name type = e.outputField name type := by
  cases name with
  | some x => rfl
  | none => cases e <;> rfl

mutual

theorem Expr.infer_mapTables (sim : Simulates excused f parts R) {s s' : Scope}
    (h : s.Related R s') :
    (e : Expr) → Among parts e.nodes → Refines excused Eq (e.infer s) ((e.mapTables f).infer s')
  | .literal _, _ | .parameter _, _ | .star _, _ | .lambda _ _, _ | .existsQuery _, _
  | .cast _ _ _, _ | .interval _ _ _ _, _ | .typed _ _, _ => .refl _
  | .column n, _ => by
    simp only [Expr.mapTables, Expr.infer, h.column? n]
    exact .refl _
  | .binary l op r, hn => by
    simp only [Expr.mapTables, Expr.infer]
    exact (Expr.infer_mapTables sim h l hn.tail.left).andThen fun _ =>
      (Expr.infer_mapTables sim h r hn.tail.right).map _
  | .unary op e, hn => by
    simp only [Expr.mapTables, Expr.infer]
    exact (Expr.infer_mapTables sim h e hn.tail).map _
  | .isNull e _, hn => by
    simp only [Expr.mapTables, Expr.infer]
    exact (Expr.infer_mapTables sim h e hn.tail).map _
  | .inQuery e _ _, hn => by
    simp only [Expr.mapTables, Expr.infer]
    exact (Expr.infer_mapTables sim h e hn.tail.left).map _
  | .isDistinct l r _, hn => by
    simp only [Expr.mapTables, Expr.infer]
    exact (Expr.infer_mapTables sim h l hn.tail.left).andThen fun _ =>
      (Expr.infer_mapTables sim h r hn.tail.right).map _
  | .like e p _ _, hn => by
    simp only [Expr.mapTables, Expr.infer]
    exact (Expr.infer_mapTables sim h e hn.tail.left).andThen fun _ =>
      (Expr.infer_mapTables sim h p hn.tail.right.left).map _
  | .between e low high _, hn => by
    simp only [Expr.mapTables, Expr.infer]
    exact (Expr.infer_mapTables sim h e hn.tail.left).andThen fun _ =>
      (Expr.infer_mapTables sim h low hn.tail.right.left).andThen fun _ =>
      (Expr.infer_mapTables sim h high hn.tail.right.right).map _
  | .inList e items _, hn => by
    simp only [Expr.mapTables, Expr.infer]
    exact (Expr.infer_mapTables sim h e hn.tail.left).andThen fun _ =>
      (Expr.infers_mapTables sim h items hn.tail.right).map _
  | .subquery q, hn => by
    simp only [Expr.mapTables, Expr.infer, h.visible]
    -- The columns in sight become those around the subquery in both contexts.
    match s.context, s'.context, h.context with
    | none, none, .none => exact .refl _
    | some _, some _, .some hc =>
      exact (q.resolve_mapTables sim (sim.around hc _) hn.tail).map _
  | .call ⟨name, _, args, _, _, _, _⟩, hn => by
    simp only [Expr.mapTables, Call.mapTables, Expr.infer]
    exact (Expr.infers_mapTables sim h args hn.tail.tail.left).map _
  | .caseWhen operand branches none, hn => by
    simp only [Expr.mapTables, Expr.mapTables?, Expr.infer]
    exact (Expr.infer?_mapTables sim h operand hn.tail.left).andThen fun _ =>
      (Expr.inferBranches_mapTables sim h _ branches hn.tail.right.left).map _
  | .caseWhen operand branches (some value), hn => by
    simp only [Expr.mapTables, Expr.infer]
    exact (Expr.infer?_mapTables sim h operand hn.tail.left).andThen fun _ =>
      (Expr.inferBranches_mapTables sim h _ branches hn.tail.right.left).andThen fun _ =>
      (Expr.infer_mapTables sim h value hn.tail.right.right).map _
  | .array items, hn => by
    simp only [Expr.mapTables, Expr.infer]
    exact (Expr.inferItems_mapTables sim h _ items hn.tail).map _
  | .row items, hn => by
    simp only [Expr.mapTables, Expr.infer]
    exact (Expr.infers_mapTables sim h items hn.tail).map _
  | .subscript base index, hn => by
    simp only [Expr.mapTables, Expr.infer]
    refine (Expr.infer_mapTables sim h index hn.tail.right).andThen fun _ =>
      (Expr.infer_mapTables sim h base hn.tail.left).andThen fun type => ?_
    cases index <;> exact .refl _
  | .field base _, hn => by
    simp only [Expr.mapTables, Expr.infer]
    exact (Expr.infer_mapTables sim h base hn.tail).map _
termination_by structural e => e

theorem Expr.infers_mapTables (sim : Simulates excused f parts R) {s s' : Scope}
    (h : s.Related R s') :
    (es : List Expr) → Among parts (Expr.nodesAll es) →
      Refines excused Eq (Expr.infers s es) (Expr.infers s' (Expr.mapTablesAll f es))
  | [], _ => .refl _
  | e :: es, hn => by
    simp only [Expr.mapTablesAll, Expr.infers]
    exact (Expr.infer_mapTables sim h e hn.left).andThen fun _ =>
      (Expr.infers_mapTables sim h es hn.right).map _
termination_by structural es => es

theorem Expr.infer?_mapTables (sim : Simulates excused f parts R) {s s' : Scope}
    (h : s.Related R s') :
    (e : Option Expr) → Among parts (Expr.nodes? e) →
      Refines excused Eq (Expr.infer? s e) (Expr.infer? s' (Expr.mapTables? f e))
  | none, _ => .refl _
  | some e, hn => by
    simp only [Expr.mapTables?, Expr.infer?]
    exact (Expr.infer_mapTables sim h e hn).map _
termination_by structural e => e

theorem Expr.inferItems_mapTables (sim : Simulates excused f parts R) {s s' : Scope}
    (h : s.Related R s') (type : DataType) :
    (es : List Expr) → Among parts (Expr.nodesAll es) →
      Refines excused Eq (Expr.inferItems s type es)
        (Expr.inferItems s' type (Expr.mapTablesAll f es))
  | [], _ => .refl _
  | e :: es, hn => by
    simp only [Expr.mapTablesAll, Expr.inferItems]
    exact (Expr.infer_mapTables sim h e hn.left).andThen fun t =>
      (Refines.refl (type.agree .arrayItems t)).andThen fun type =>
      Expr.inferItems_mapTables sim h type es hn.right
termination_by structural es => es

theorem Expr.inferBranches_mapTables (sim : Simulates excused f parts R) {s s' : Scope}
    (h : s.Related R s') (type : DataType) :
    (bs : List (Expr × Expr)) → Among parts (Expr.branchNodes bs) →
      Refines excused Eq (Expr.inferBranches s type bs)
        (Expr.inferBranches s' type (Expr.mapTablesBranches f bs))
  | [], _ => .refl _
  | (condition, value) :: bs, hn => by
    simp only [Expr.mapTablesBranches, Expr.inferBranches]
    exact (Expr.infer_mapTables sim h condition hn.left).andThen fun _ =>
      (Expr.infer_mapTables sim h value hn.right.left).andThen fun t =>
      (Refines.refl (type.agree .caseBranches t)).andThen fun type =>
      Expr.inferBranches_mapTables sim h type bs hn.right.right
termination_by structural bs => bs

theorem Expr.inferCells_mapTables (sim : Simulates excused f parts R) {s s' : Scope}
    (h : s.Related R s') (position : Nat) (columns : List DataType) :
    (es : List Expr) → Among parts (Expr.nodesAll es) →
      Refines excused Eq (Expr.inferCells s position columns es)
        (Expr.inferCells s' position columns (Expr.mapTablesAll f es))
  | [], _ => .refl _
  | e :: es, hn => by
    cases columns with
    | nil => exact .refl _
    | cons column columns =>
      simp only [Expr.mapTablesAll, Expr.inferCells]
      exact (Expr.infer_mapTables sim h e hn.left).andThen fun t =>
        (Refines.refl (column.agree (.valuesColumn position) t)).andThen fun _ =>
        (Expr.inferCells_mapTables sim h (position + 1) columns es hn.right).map _
termination_by structural es => es

theorem Expr.inferRows_mapTables (sim : Simulates excused f parts R) {s s' : Scope}
    (h : s.Related R s') (row : Nat) (columns : List DataType) :
    (es : List Expr) → Among parts (Expr.nodesAll es) →
      Refines excused Eq (Expr.inferRows s row columns es)
        (Expr.inferRows s' row columns (Expr.mapTablesAll f es))
  | [], _ => .refl _
  | e :: es, hn => by
    have he := Expr.infer_mapTables sim h e hn.left
    have hes := fun columns => Expr.inferRows_mapTables sim h (row + 1) columns es hn.right
    cases e with
    | row items =>
      simp only [Expr.mapTablesAll, Expr.mapTables, Expr.inferRows, Expr.length_mapTablesAll]
      split
      · exact .refl _
      · exact (Expr.inferCells_mapTables sim h 0 columns items hn.left.tail).andThen hes
    | _ =>
      simp only [Expr.mapTablesAll, Expr.mapTables, Expr.inferRows]
      split
      · exact .refl _
      · exact he.andThen fun type => (Refines.refl _).andThen hes
termination_by structural es => es

theorem Relation.resolve_mapTables (sim : Simulates excused f parts R) {ctx ctx' : Context}
    (h : R ctx ctx') :
    (r : Relation) → Among parts r.nodes →
      Refines excused Eq (r.resolve ctx) ((r.mapTables f).resolve ctx')
  | .table n known, hn => sim.relation h hn.head
  | .renamed r x columns, hn => by
    simp only [Relation.mapTables, Relation.resolve]
    exact (r.resolve_mapTables sim h hn.tail).map _
  | .join l r _ criteria, hn => by
    simp only [Relation.mapTables, Relation.resolve]
    refine (l.resolve_mapTables sim h hn.tail.left).andThen fun left =>
      (r.resolve_mapTables sim (sim.beside h left) hn.tail.right.left).andThen fun right => ?_
    cases criteria <;> exact .refl _
  | .setOperation o, hn => by
    simp only [Relation.mapTables, Relation.resolve]
    exact o.resolve_mapTables sim h hn.tail
  | .query q, hn => by
    simp only [Relation.mapTables, Relation.resolve]
    exact q.resolve_mapTables sim (sim.around h none) hn.tail
  | .values rows, hn => by
    simp only [Relation.mapTables, Relation.resolve, Expr.unknownColumns_mapTablesAll]
    exact (Expr.inferRows_mapTables sim (sim.scope h _) _ _ rows hn.tail).map _
  | .unnest args _, hn => by
    simp only [Relation.mapTables, Relation.resolve]
    exact (Expr.infers_mapTables sim (sim.scope h _) args hn.tail).map _
  | .lateral q, hn => by
    simp only [Relation.mapTables, Relation.resolve]
    exact q.resolve_mapTables sim h hn.tail
  | .sample r _ _, hn => by
    simp only [Relation.mapTables, Relation.resolve]
    exact r.resolve_mapTables sim h hn.tail.left
termination_by structural r => r

theorem Relation.resolveAll_mapTables (sim : Simulates excused f parts R) {ctx ctx' : Context}
    (h : R ctx ctx') (source : Schema) :
    (rs : List Relation) → Among parts (Relation.nodesAll rs) →
      Refines excused Eq (Relation.resolveAll ctx source rs)
        (Relation.resolveAll ctx' source (Relation.mapTablesAll f rs))
  | [], _ => .refl _
  | r :: rs, hn => by
    simp only [Relation.mapTablesAll, Relation.resolveAll]
    exact (r.resolve_mapTables sim (sim.beside h source) hn.left).andThen fun schema =>
      (Refines.refl (source.checkDisjoint schema)).andThen fun _ =>
      Relation.resolveAll_mapTables sim h (source.append schema) rs hn.right
termination_by structural rs => rs

theorem SetOperation.resolve_mapTables (sim : Simulates excused f parts R) {ctx ctx' : Context}
    (h : R ctx ctx') :
    (o : SetOperation) → Among parts o.nodes →
      Refines excused Eq (o.resolve ctx) ((o.mapTables f).resolve ctx')
  | ⟨_, _, left, right⟩, hn => by
    simp only [SetOperation.mapTables, SetOperation.resolve]
    exact (left.resolve_mapTables sim (sim.around h none) hn.left).andThen fun _ =>
      (right.resolve_mapTables sim (sim.around h none) hn.right).map _
termination_by structural o => o

theorem Query.resolve_mapTables (sim : Simulates excused f parts R) {ctx ctx' : Context}
    (h : R ctx ctx') :
    (q : Query) → Among parts q.nodes →
      Refines excused Eq (q.resolve ctx) ((q.mapTables f).resolve ctx')
  | ⟨none, body, _, _, _⟩, hn => by
    simp only [Query.mapTables, With.mapTables?, Query.resolve]
    exact body.resolve_mapTables sim h hn.tail.right.left
  | ⟨some bindings, body, _, _, _⟩, hn => by
    simp only [Query.mapTables, With.mapTables?, Query.resolve]
    exact (bindings.bind_mapTables sim h hn.tail.left).bind fun _ _ h =>
      body.resolve_mapTables sim h hn.tail.right.left
termination_by structural q => q

theorem With.bind_mapTables (sim : Simulates excused f parts R) {ctx ctx' : Context}
    (h : R ctx ctx') :
    (w : With) → Among parts w.nodes →
      Refines excused R (w.bind ctx) ((w.mapTables f).bind ctx')
  | ⟨recursive, entries⟩, hn => by
    simp only [With.mapTables, With.bind]
    exact Cte.bindAll_mapTables sim h hn.head recursive [] entries hn.tail
termination_by structural w => w

theorem Cte.bindAll_mapTables (sim : Simulates excused f parts R) {ctx ctx' : Context}
    (h : R ctx ctx') {w : With} (hw : .bindings w ∈ parts) (recursive : Bool)
    (earlier : List Ident) :
    (entries : List Cte) → Among parts (Cte.nodesAll entries) →
      Refines excused R (Cte.bindAll recursive earlier ctx entries)
        (Cte.bindAll recursive earlier ctx' (Cte.mapTablesAll f entries))
  | [], _ => .ok h
  | ⟨x, columns, query⟩ :: entries, hn => by
    simp only [Cte.mapTablesAll, Cte.mapTables, Cte.bindAll]
    split
    · exact .error _
    -- Both contexts bind the same schema, so that they go on to correspond.
    · have hself := sim.around (sim.bindSelf h hw recursive x columns) none
      exact (query.resolve_mapTables sim hself hn.left.tail).andThen fun schema =>
        (Refines.refl _).andThen fun fields =>
        (Refines.refl _).andThen fun bound =>
        Cte.bindAll_mapTables sim (sim.bind h hw x bound) hw recursive (x :: earlier) entries
          hn.right
termination_by structural entries => entries

theorem Body.resolve_mapTables (sim : Simulates excused f parts R) {ctx ctx' : Context}
    (h : R ctx ctx') :
    (b : Body) → Among parts b.nodes →
      Refines excused Eq (b.resolve ctx) ((b.mapTables f).resolve ctx')
  | .select select, hn => by
    simp only [Body.mapTables, Body.resolve]
    exact select.resolve_mapTables sim h hn.tail
  | .table n, hn => sim.body h hn.head
  | .values rows, hn => by
    simp only [Body.mapTables, Body.resolve, Expr.unknownColumns_mapTablesAll]
    exact (Expr.inferRows_mapTables sim (sim.scope h _) _ _ rows hn.tail).map _
  | .setOperation o, hn => by
    simp only [Body.mapTables, Body.resolve]
    exact o.resolve_mapTables sim h hn.tail
  | .nested q, hn => by
    simp only [Body.mapTables, Body.resolve]
    exact q.resolve_mapTables sim h hn.tail
termination_by structural b => b

theorem Select.resolve_mapTables (sim : Simulates excused f parts R) {ctx ctx' : Context}
    (h : R ctx ctx') :
    (s : Select) → Among parts s.nodes →
      Refines excused Eq (s.resolve ctx) ((s.mapTables f).resolve ctx')
  | ⟨_, items, sources, _, _, _, _⟩, hn => by
    simp only [Select.mapTables, Select.resolve]
    exact (Relation.resolveAll_mapTables sim h _ sources hn.tail.right.left).andThen fun source =>
      (SelectItem.resolveAll_mapTables sim (sim.scope h source) items hn.tail.left).map _
termination_by structural s => s

theorem SelectItem.resolve_mapTables (sim : Simulates excused f parts R) {s s' : Scope}
    (h : s.Related R s') :
    (i : SelectItem) → Among parts i.nodes →
      Refines excused Eq (i.resolve s) ((i.mapTables f).resolve s')
  | .star relation xs, _ => by
    simp only [SelectItem.mapTables, SelectItem.resolve, h.near]
    exact .refl _
  | .expr e _, hn => by
    simp only [SelectItem.mapTables, SelectItem.resolve, Expr.outputField_mapTables]
    exact (e.infer_mapTables sim h hn.tail).map _
termination_by structural i => i

theorem SelectItem.resolveAll_mapTables (sim : Simulates excused f parts R) {s s' : Scope}
    (h : s.Related R s') :
    (is : List SelectItem) → Among parts (SelectItem.nodesAll is) →
      Refines excused Eq (SelectItem.resolveAll s is)
        (SelectItem.resolveAll s' (SelectItem.mapTablesAll f is))
  | [], _ => .refl _
  | i :: is, hn => by
    simp only [SelectItem.mapTablesAll, SelectItem.resolveAll]
    exact (i.resolve_mapTables sim h hn.left).andThen fun _ =>
      (SelectItem.resolveAll_mapTables sim h is hn.right).map _
termination_by structural is => is

end

/-! ### The same tree in two contexts -/

/-- Every table stays in its place. -/
theorem simulates_self (parts : List Node) :
    Simulates (fun _ => False) Relation.table parts Eq where
  outer h := h ▸ rfl
  around h _ := h ▸ rfl
  relation h _ _ _ := h ▸ .refl _
  body h _ _ := h ▸ .refl _
  bind h _ _ _ _ := h ▸ rfl

/-- The table that a part of a tree names by itself. -/
def Node.table? : Node → Option Name
  | .relation (.table n _) | .body (.table n) => some n
  | _ => none

def tablesOf (nodes : List Node) : List Name := nodes.filterMap Node.table?

/-- The tables that a query names, at any depth. -/
def Query.tables (q : Query) : List Name := tablesOf q.nodes

/-- All tables among the parts are in the list of names. -/
def TablesIn (names : List Name) (nodes : List Node) : Prop := tablesOf nodes ⊆ names

namespace Context

theorem binding?_bind (ctx : Context) (x y : Ident) (s : Schema) :
    (ctx.bind x s).binding? y = if x.same y then some s else ctx.binding? y := by
  unfold binding? bind
  split <;> simp_all

/-- A bound name hides all else of that name and nothing more. -/
theorem table_bind (ctx : Context) (x : Ident) (s : Schema) (n : Name) (known : Option Schema) :
    (ctx.bind x s).table n known =
      if n.qualifier = [] ∧ x.same n.base then .ok (s.withSource n) else ctx.table n known := by
  by_cases hq : n.qualifier = [] <;> by_cases hx : x.same n.base <;>
    simp [table, binding?_bind, hq, hx] <;> rfl

/-- Both contexts have the same columns around the tree, and what the first says about one of the
named tables, the second says as well. -/
structure Follows (excused : ResolveError → Prop) (names : List Name) (ctx ctx' : Context) :
    Prop where
  outer : ctx.outer = ctx'.outer
  table : ∀ n ∈ names, ∀ known, Refines excused Eq (ctx.table n known) (ctx'.table n known)

variable {names : List Name} {ctx ctx' : Context}

theorem Follows.bind (h : ctx.Follows excused names ctx') (x : Ident) (s : Schema) :
    (ctx.bind x s).Follows excused names (ctx'.bind x s) := by
  refine ⟨h.outer, fun n hn known => ?_⟩
  rw [table_bind, table_bind]
  split
  · exact .refl _
  · exact h.table n hn known

theorem Follows.simulates (hparts : TablesIn names parts) :
    Simulates excused Relation.table parts (Follows excused names) where
  outer h := h.outer
  around h _ := ⟨rfl, h.table⟩
  relation h n known hn := h.table n (hparts (List.mem_filterMap.2 ⟨_, hn, rfl⟩)) known
  body h n hn := h.table n (hparts (List.mem_filterMap.2 ⟨_, hn, rfl⟩)) none
  bind h _ _ x s := h.bind x s

end Context

theorem Relation.resolve_refines {names : List Name} {ctx ctx' : Context}
    (h : ctx.Follows excused names ctx') (r : Relation) (hn : TablesIn names r.nodes) :
    Refines excused Eq (r.resolve ctx) (r.resolve ctx') := by
  have hself := (r.resolve_mapTables (simulates_self r.nodes) (Eq.refl ctx') fun _ h => h).eq
  rw [hself]
  exact r.resolve_mapTables (Context.Follows.simulates hn) h fun _ h => h

theorem Query.resolve_refines {names : List Name} {ctx ctx' : Context}
    (h : ctx.Follows excused names ctx') (q : Query) (hn : TablesIn names q.nodes) :
    Refines excused Eq (q.resolve ctx) (q.resolve ctx') := by
  have hself := (q.resolve_mapTables (simulates_self q.nodes) (Eq.refl ctx') fun _ h => h).eq
  rw [hself]
  exact q.resolve_mapTables (Context.Follows.simulates hn) h fun _ h => h

end Sql
