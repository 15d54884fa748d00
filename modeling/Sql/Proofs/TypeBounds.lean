import Sql.Proofs.Nodes
import Sql.Proofs.TypeRules

/-! Types found by resolution have the properties of the types that it starts from; in particular
the parameters of decimals, times and timestamps stay in their range. -/
namespace Sql

variable {P : Scalar → Prop}

/-! ### Tables and columns in sight -/

/-- All types that a context supplies have the property throughout. -/
structure Context.Every (P : Scalar → Prop) (ctx : Context) : Prop where
  lookup : ∀ n s, ctx.lookup n = some s → s.Every P
  bindings : ∀ b ∈ ctx.bindings, b.2.Every P
  outer : ∀ s ∈ ctx.outer, s.Every P

structure Scope.Every (P : Scalar → Prop) (s : Scope) : Prop where
  near : s.near.Every P
  outer : ∀ t ∈ s.outer, t.Every P
  context : ∀ ctx ∈ s.context, ctx.Every P

/-- The types that a part of a tree gives by itself have the property throughout: those of a `CAST`
and of a table with a schema known ahead. -/
def Node.Every (P : Scalar → Prop) : Node → Prop
  | .expr (.cast _ t _) => t.Every P
  | .relation (.table _ (some s)) => s.Every P
  | _ => True

namespace Context.Every

variable {ctx : Context} {s : Schema}

theorem around (h : ctx.Every P) {outer : Option Schema} (houter : ∀ s ∈ outer, s.Every P) :
    Context.Every P { ctx with outer } :=
  ⟨h.lookup, h.bindings, houter⟩

theorem withoutOuter (h : ctx.Every P) : ctx.withoutOuter.Every P := h.around nofun

theorem withOuter (h : ctx.Every P) (hs : s.Every P) : (ctx.withOuter s).Every P := by
  refine h.around ?_
  rintro _ ⟨⟩
  exact hs

theorem beside (h : ctx.Every P) (hs : s.Every P) : (ctx.beside s).Every P := by
  unfold Context.beside
  cases houter : ctx.outer with
  | none => exact h.withOuter hs
  | some outer => exact h.withOuter (Schema.every_append (h.outer outer houter) hs)

theorem bind (h : ctx.Every P) (x : Ident) (hs : s.Every P) : (ctx.bind x s).Every P :=
  ⟨h.lookup, List.forall_mem_cons.2 ⟨hs, h.bindings⟩, h.outer⟩

theorem bindSelf (h : ctx.Every P) (recursive : Bool) (x : Ident) (columns : List Ident) :
    (ctx.bindSelf recursive x columns).Every P := by
  unfold Context.bindSelf
  split
  · refine h.bind x fun f hf => ?_
    obtain ⟨y, -, rfl⟩ := List.mem_map.1 hf
    trivial
  · exact h

theorem binding? (h : ctx.Every P) (x : Ident) : ∀ s ∈ ctx.binding? x, s.Every P := by
  intro s hs
  obtain ⟨b, hb, rfl⟩ := Option.map_eq_some_iff.1 hs
  exact h.bindings b (List.mem_of_find?_eq_some hb)

theorem table (h : ctx.Every P) (n : Name) {known : Option Schema}
    (hknown : ∀ s ∈ known, s.Every P) : Yields (Schema.Every P) (ctx.table n known) := by
  unfold Context.table
  extract_lets bound
  have hbound : ∀ s ∈ bound, s.Every P := by
    intro s hs
    by_cases hq : n.qualifier.isEmpty = true
    · exact h.binding? n.base s (by simpa [bound, hq] using hs)
    · simp [bound, hq] at hs
  split
  · rename_i s hs
    refine .ok (Schema.every_withSource ?_ n)
    rcases Option.or_eq_some_iff.1 hs with hs | ⟨-, hs⟩
    · rcases Option.or_eq_some_iff.1 hs with hs | ⟨-, hs⟩
      · exact hbound s hs
      · exact hknown s hs
    · exact h.lookup n s hs
  · split
    · exact .ok nofun
    · exact .error _

theorem scope (h : ctx.Every P) (hs : s.Every P) : (Scope.of ctx s).Every P := by
  refine ⟨hs, h.outer, ?_⟩
  rintro _ ⟨⟩
  exact h

end Context.Every

namespace Scope

variable {s : Scope}

theorem Every.visible (h : s.Every P) : s.visible.Every P := by
  unfold Scope.visible
  split
  · rename_i outer houter
    exact Schema.every_append h.near (h.outer outer houter)
  · exact h.near

theorem firstFound_yields {α : Type} {Q : α → Prop}
    (answers : List (Except ResolveError (Option α)))
    (h : ∀ x ∈ answers, Yields (fun found => ∀ a ∈ found, Q a) x) :
    Yields (fun found => ∀ a ∈ found, Q a) (firstFound answers) := by
  induction answers with
  | nil => exact .ok nofun
  | cons x answers ih =>
    obtain ⟨hx, hrest⟩ := List.forall_mem_cons.1 h
    match x with
    | .ok none => exact ih hrest
    | .ok (some a) => exact hx
    | .error e => exact .error e

theorem Every.column? (h : s.Every P) (n : Name) :
    Yields (fun found => ∀ p ∈ found, p.1.type.Every P) (s.column? n) := by
  have hplaces : ∀ t ∈ s.near :: s.outer.toList, t.Every P :=
    List.forall_mem_cons.2 ⟨h.near, fun t ht => h.outer t (Option.mem_toList.1 ht)⟩
  refine firstFound_yields _ fun x hx => ?_
  obtain ⟨⟨qualifier, column, rest⟩, -, hx⟩ := List.mem_flatMap.1 hx
  obtain ⟨t, ht, rfl⟩ := List.mem_map.1 hx
  have hfind := Schema.find?_every (hplaces t ht) column qualifier
  cases hf : t.find? column qualifier with
  | error e => exact .error e
  | ok found =>
    refine .ok fun p hp => ?_
    obtain ⟨q, hq, rfl⟩ := Option.map_eq_some_iff.1 hp
    exact hfind found hf q hq

end Scope

theorem DataType.foldl_fieldType_every {t : DataType} (ht : t.Every P) (rest : List Ident) :
    (rest.foldl (fun type x => type.fieldType x) t).Every P := by
  induction rest generalizing t with
  | nil => exact ht
  | cons x rest ih => exact ih (fieldType_every x ht)

theorem unknownColumns_every (rows : List Expr) : ∀ t ∈ Expr.unknownColumns rows, t.Every P := by
  intro t ht
  obtain ⟨-, rfl⟩ := List.mem_replicate.1 ht
  trivial

theorem Expr.type_outputField (e : Expr) (name : Option Ident) (type : DataType) :
    (e.outputField name type).type = type := by
  cases name with
  | some x => rfl
  | none => cases e <;> rfl

/-! ### Expressions, relations and queries -/

variable {parts : List Node}

/-- What the trees that are made of these parts are resolved from. -/
structure Given (P : Scalar → Prop) (parts : List Node) : Prop where
  stable : Scalar.Stable P
  parts : ∀ part ∈ parts, part.Every P

mutual

theorem Expr.infer_every (g : Given P parts) {s : Scope} (h : s.Every P) :
    (e : Expr) → Among parts e.nodes → Yields (DataType.Every P) (e.infer s)
  | .literal v, _ => .ok (v.type_every g.stable)
  | .column n, _ => by
    simp only [Expr.infer]
    refine (h.column? n).bind fun found hfound => ?_
    cases found with
    | none => exact .ok trivial
    | some p => exact .ok (DataType.foldl_fieldType_every (hfound p rfl) p.2)
  | .parameter _, _ | .star _, _ | .lambda _ _, _ => .ok trivial
  | .existsQuery _, _ => .ok (g.stable.of_bounded _ trivial)
  | .typed type text, _ => .ok (typedLiteralType_every g.stable type text)
  | .cast _ _ _, hn => .ok (g.parts _ hn.head)
  | .interval _ _ start _, _ => by
    refine .ok (g.stable.of_bounded _ ?_)
    split <;> trivial
  | .binary l op r, hn => by
    simp only [Expr.infer]
    exact (Expr.infer_every g h l hn.tail.left).bind fun _ hl =>
      (Expr.infer_every g h r hn.tail.right).bind fun _ hr => op.type_every g.stable hl hr
  | .unary op e, hn => by
    simp only [Expr.infer]
    exact (Expr.infer_every g h e hn.tail).map fun _ ht => op.type_every g.stable ht
  | .isNull e _, _ | .inQuery e _ _, _ => by
    simp only [Expr.infer]
    exact .skip fun _ => .ok (g.stable.of_bounded _ trivial)
  | .isDistinct _ _ _, _ | .like _ _ _ _, _ | .inList _ _ _, _ => by
    simp only [Expr.infer]
    exact .skip fun _ => .skip fun _ => .ok (g.stable.of_bounded _ trivial)
  | .between _ _ _ _, _ => by
    simp only [Expr.infer]
    exact .skip fun _ => .skip fun _ => .skip fun _ => .ok (g.stable.of_bounded _ trivial)
  | .subquery q, hn => by
    simp only [Expr.infer]
    split
    · rename_i ctx hctx
      exact (q.resolve_every g ((h.context ctx hctx).withOuter h.visible) hn.tail).map
        fun _ hs => Schema.valueType_every hs
    · exact .ok trivial
  | .call ⟨name, _, args, _, _, _, _⟩, hn => by
    simp only [Expr.infer]
    refine (Expr.infers_every g h args hn.tail.tail.left).map fun types htypes => ?_
    have hreturn := returnType?_every g.stable name.base.text htypes
    cases hr : returnType? name.base.text types with
    | none => trivial
    | some t => exact hreturn t hr
  | .caseWhen operand branches none, hn => by
    simp only [Expr.infer]
    exact .skip fun _ => (Expr.inferBranches_every g h DataType.every_unknown branches
      hn.tail.right.left).map fun _ ht => ht
  | .caseWhen operand branches (some value), hn => by
    simp only [Expr.infer]
    exact .skip fun _ =>
      (Expr.inferBranches_every g h DataType.every_unknown branches
        hn.tail.right.left).bind fun _ ht =>
      (Expr.infer_every g h value hn.tail.right.right).bind fun _ hu =>
      DataType.agree_every g.stable _ ht hu
  | .array items, hn => by
    simp only [Expr.infer]
    exact (Expr.inferItems_every g h DataType.every_unknown items hn.tail).map fun _ ht => ht
  | .row items, hn => by
    simp only [Expr.infer]
    refine (Expr.infers_every g h items hn.tail).map fun types htypes => ?_
    refine RowField.everyAll_iff.2 fun f hf => ?_
    obtain ⟨t, ht, rfl⟩ := List.mem_map.1 hf
    exact htypes t ht
  | .subscript base index, hn => by
    simp only [Expr.infer]
    refine .skip fun _ => (Expr.infer_every g h base hn.tail.left).bind fun t ht => ?_
    cases t with
    | array => exact .ok ht
    | map => exact .ok ht.2
    | row fields =>
      dsimp only
      split
      · exact .ok (DataType.itemType_every _ ht)
      · exact .ok trivial
    | _ => exact .ok trivial
  | .field base x, hn => by
    simp only [Expr.infer]
    exact (Expr.infer_every g h base hn.tail).map fun _ ht => DataType.fieldType_every x ht
termination_by structural e => e

theorem Expr.infers_every (g : Given P parts) {s : Scope} (h : s.Every P) :
    (es : List Expr) → Among parts (Expr.nodesAll es) →
      Yields (fun types => ∀ t ∈ types, t.Every P) (Expr.infers s es)
  | [], _ => .ok nofun
  | e :: es, hn => by
    simp only [Expr.infers]
    exact (Expr.infer_every g h e hn.left).bind fun _ ht =>
      (Expr.infers_every g h es hn.right).map fun _ hts => List.forall_mem_cons.2 ⟨ht, hts⟩
termination_by structural es => es

theorem Expr.inferItems_every (g : Given P parts) {s : Scope} (h : s.Every P) {type : DataType}
    (htype : type.Every P) : (es : List Expr) → Among parts (Expr.nodesAll es) →
      Yields (DataType.Every P) (Expr.inferItems s type es)
  | [], _ => .ok htype
  | e :: es, hn => by
    simp only [Expr.inferItems]
    exact (Expr.infer_every g h e hn.left).bind fun _ ht =>
      (DataType.agree_every g.stable _ htype ht).bind fun _ htype =>
      Expr.inferItems_every g h htype es hn.right
termination_by structural es => es

theorem Expr.inferBranches_every (g : Given P parts) {s : Scope} (h : s.Every P)
    {type : DataType} (htype : type.Every P) :
    (bs : List (Expr × Expr)) → Among parts (Expr.branchNodes bs) →
      Yields (DataType.Every P) (Expr.inferBranches s type bs)
  | [], _ => .ok htype
  | (condition, value) :: bs, hn => by
    simp only [Expr.inferBranches]
    exact .skip fun _ => (Expr.infer_every g h value hn.right.left).bind fun _ ht =>
      (DataType.agree_every g.stable _ htype ht).bind fun _ htype =>
      Expr.inferBranches_every g h htype bs hn.right.right
termination_by structural bs => bs

theorem Expr.inferCells_every (g : Given P parts) {s : Scope} (h : s.Every P) (position : Nat)
    {columns : List DataType} (hcolumns : ∀ t ∈ columns, t.Every P) :
    (es : List Expr) → Among parts (Expr.nodesAll es) →
      Yields (fun types => ∀ t ∈ types, t.Every P) (Expr.inferCells s position columns es)
  | [], _ => .ok hcolumns
  | e :: es, hn => by
    cases columns with
    | nil => exact .ok nofun
    | cons column columns =>
      obtain ⟨hcolumn, hcolumns⟩ := List.forall_mem_cons.1 hcolumns
      simp only [Expr.inferCells]
      exact (Expr.infer_every g h e hn.left).bind fun _ ht =>
        (DataType.agree_every g.stable _ hcolumn ht).bind fun _ htype =>
        (Expr.inferCells_every g h (position + 1) hcolumns es hn.right).map fun _ hts =>
        List.forall_mem_cons.2 ⟨htype, hts⟩
termination_by structural es => es

theorem Expr.inferRows_every (g : Given P parts) {s : Scope} (h : s.Every P) (row : Nat)
    {columns : List DataType} (hcolumns : ∀ t ∈ columns, t.Every P) :
    (es : List Expr) → Among parts (Expr.nodesAll es) →
      Yields (fun types => ∀ t ∈ types, t.Every P) (Expr.inferRows s row columns es)
  | [], _ => .ok hcolumns
  | e :: es, hn => by
    have he := Expr.infer_every g h e hn.left
    have hes : ∀ columns : List DataType, (∀ t ∈ columns, t.Every P) →
        Yields (fun types => ∀ t ∈ types, t.Every P) (Expr.inferRows s (row + 1) columns es) :=
      fun _ hcolumns => Expr.inferRows_every g h (row + 1) hcolumns es hn.right
    cases e with
    | row items =>
      simp only [Expr.inferRows]
      split
      · exact .error _
      · exact (Expr.inferCells_every g h 0 hcolumns items hn.left.tail).bind hes
    | _ =>
      simp only [Expr.inferRows]
      split
      · exact .error _
      · exact he.bind fun type htype => (Yields.mapM (fun column hcolumn =>
          DataType.agree_every g.stable _ hcolumn htype) columns hcolumns).bind hes
termination_by structural es => es

theorem Relation.resolve_every (g : Given P parts) {ctx : Context} (h : ctx.Every P) :
    (r : Relation) → Among parts r.nodes → Yields (Schema.Every P) (r.resolve ctx)
  | .table n known, hn => by
    refine h.table n ?_
    rintro s ⟨⟩
    exact g.parts _ hn.head
  | .renamed r x columns, hn => by
    simp only [Relation.resolve]
    exact (r.resolve_every g h hn.tail).bind fun _ hs =>
      (Schema.rename_every x columns hs).map fun _ hf =>
      Schema.every_withSource (s := ⟨_, _⟩) hf _
  | .join l r _ criteria, hn => by
    simp only [Relation.resolve]
    refine (l.resolve_every g h hn.tail.left).bind fun left hl => ?_
    refine (r.resolve_every g (h.beside hl) hn.tail.right.left).bind fun right hr => ?_
    refine .skip fun _ => ?_
    cases criteria with
    | condition | absent => exact .ok (Schema.every_append hl hr)
    | columns names => exact Schema.coalesce_every g.stable hl hr names
    | natural => exact Schema.naturalJoin_every g.stable hl hr
  | .setOperation o, hn => by
    simp only [Relation.resolve]
    exact o.resolve_every g h hn.tail
  | .query q, hn => by
    simp only [Relation.resolve]
    exact q.resolve_every g h.withoutOuter hn.tail
  | .values rows, hn => by
    simp only [Relation.resolve]
    exact (Expr.inferRows_every g (h.scope Schema.every_empty) 0 (unknownColumns_every rows) rows
      hn.tail).map fun _ hts => Schema.generated_every hts
  | .unnest args ordinality, hn => by
    simp only [Relation.resolve]
    refine (Expr.infers_every g (h.scope Schema.every_empty) args hn.tail).map
      fun types htypes => ?_
    refine List.forall_mem_append.2 ⟨Schema.generated_every fun t ht => ?_, ?_⟩
    · obtain ⟨u, hu, ht⟩ := List.mem_flatMap.1 ht
      exact DataType.unnested_every (htypes u hu) t ht
    · cases ordinality
      · exact nofun
      · exact List.forall_mem_singleton.2 (g.stable.of_bounded _ trivial)
  | .lateral q, hn => by
    simp only [Relation.resolve]
    exact q.resolve_every g h hn.tail
  | .sample r _ _, hn => by
    simp only [Relation.resolve]
    exact r.resolve_every g h hn.tail.left
termination_by structural r => r

theorem Relation.resolveAll_every (g : Given P parts) {ctx : Context} (h : ctx.Every P)
    {source : Schema} (hsource : source.Every P) :
    (rs : List Relation) → Among parts (Relation.nodesAll rs) →
      Yields (Schema.Every P) (Relation.resolveAll ctx source rs)
  | [], _ => .ok hsource
  | r :: rs, hn => by
    simp only [Relation.resolveAll]
    exact (r.resolve_every g (h.beside hsource) hn.left).bind fun _ hs => .skip fun _ =>
      Relation.resolveAll_every g h (Schema.every_append hsource hs) rs hn.right
termination_by structural rs => rs

theorem SetOperation.resolve_every (g : Given P parts) {ctx : Context} (h : ctx.Every P) :
    (o : SetOperation) → Among parts o.nodes → Yields (Schema.Every P) (o.resolve ctx)
  | ⟨_, _, left, right⟩, hn => by
    simp only [SetOperation.resolve]
    exact (left.resolve_every g h.withoutOuter hn.left).bind fun _ hl =>
      (right.resolve_every g h.withoutOuter hn.right).bind fun _ hr =>
      Schema.setOperation_every g.stable hl hr
termination_by structural o => o

theorem Query.resolve_every (g : Given P parts) {ctx : Context} (h : ctx.Every P) :
    (q : Query) → Among parts q.nodes → Yields (Schema.Every P) (q.resolve ctx)
  | ⟨none, body, _, _, _⟩, hn => by
    simp only [Query.resolve]
    exact body.resolve_every g h hn.tail.right.left
  | ⟨some bindings, body, _, _, _⟩, hn => by
    simp only [Query.resolve]
    exact (bindings.bind_every g h hn.tail.left).bind fun _ h =>
      body.resolve_every g h hn.tail.right.left
termination_by structural q => q

theorem With.bind_every (g : Given P parts) {ctx : Context} (h : ctx.Every P) :
    (w : With) → Among parts w.nodes → Yields (Context.Every P) (w.bind ctx)
  | ⟨recursive, entries⟩, hn => by
    simp only [With.bind]
    exact Cte.bindAll_every g h recursive [] entries hn.tail
termination_by structural w => w

theorem Cte.bindAll_every (g : Given P parts) {ctx : Context} (h : ctx.Every P)
    (recursive : Bool) (earlier : List Ident) :
    (entries : List Cte) → Among parts (Cte.nodesAll entries) →
      Yields (Context.Every P) (Cte.bindAll recursive earlier ctx entries)
  | [], _ => .ok h
  | ⟨x, columns, query⟩ :: entries, hn => by
    simp only [Cte.bindAll]
    split
    · exact .error _
    · have hself := (h.bindSelf recursive x columns).withoutOuter
      refine (query.resolve_every g hself hn.left.tail).bind fun schema hs => ?_
      refine (Schema.rename_every x columns hs).bind fun fields hf => ?_
      have hbound : Schema.Every P ⟨fields, schema.relations⟩ := hf
      refine (Schema.appendStrict_yields _ _).bind fun bound hb => ?_
      refine Cte.bindAll_every g (h.bind x ?_) recursive (x :: earlier) entries hn.right
      rw [hb]
      exact Schema.every_withSource hbound _
termination_by structural entries => entries

theorem Body.resolve_every (g : Given P parts) {ctx : Context} (h : ctx.Every P) :
    (b : Body) → Among parts b.nodes → Yields (Schema.Every P) (b.resolve ctx)
  | .select select, hn => by
    simp only [Body.resolve]
    exact select.resolve_every g h hn.tail
  | .table n, _ => h.table n nofun
  | .values rows, hn => by
    simp only [Body.resolve]
    exact (Expr.inferRows_every g (h.scope Schema.every_empty) 0 (unknownColumns_every rows) rows
      hn.tail).map fun _ hts => Schema.generated_every hts
  | .setOperation o, hn => by
    simp only [Body.resolve]
    exact o.resolve_every g h hn.tail
  | .nested q, hn => by
    simp only [Body.resolve]
    exact q.resolve_every g h hn.tail
termination_by structural b => b

theorem Select.resolve_every (g : Given P parts) {ctx : Context} (h : ctx.Every P) :
    (s : Select) → Among parts s.nodes → Yields (Schema.Every P) (s.resolve ctx)
  | ⟨_, items, sources, _, _, _, _⟩, hn => by
    simp only [Select.resolve]
    refine (Relation.resolveAll_every g h Schema.every_empty sources hn.tail.right.left).bind
      fun source hs => ?_
    refine (SelectItem.resolveAll_every g (h.scope hs) items hn.tail.left).map
      fun fields hf f hmem => ?_
    obtain ⟨e, he, rfl⟩ := List.mem_map.1 hmem
    exact hf e he
termination_by structural s => s

theorem SelectItem.resolve_every (g : Given P parts) {s : Scope} (h : s.Every P) :
    (i : SelectItem) → Among parts i.nodes → Yields (Field.EveryAll P) (i.resolve s)
  | .star relation xs, _ => by
    simp only [SelectItem.resolve]
    exact Schema.expand_every h.near relation xs
  | .expr e x, hn => by
    simp only [SelectItem.resolve]
    refine (e.infer_every g h hn.tail).map fun type htype => List.forall_mem_singleton.2 ?_
    rwa [Expr.type_outputField]
termination_by structural i => i

theorem SelectItem.resolveAll_every (g : Given P parts) {s : Scope} (h : s.Every P) :
    (is : List SelectItem) → Among parts (SelectItem.nodesAll is) →
      Yields (Field.EveryAll P) (SelectItem.resolveAll s is)
  | [], _ => .ok nofun
  | i :: is, hn => by
    simp only [SelectItem.resolveAll]
    exact (i.resolve_every g h hn.left).bind fun _ hf =>
      (SelectItem.resolveAll_every g h is hn.right).map fun _ hfs =>
      List.forall_mem_append.2 ⟨hf, hfs⟩
termination_by structural is => is

end

/-- From types in range come types in range: where all decimals, times and timestamps of the base
tables, the bindings and the columns in sight are in range, and so are those of casts and of
schemas known ahead in the tree, those of a resolved relation, query or expression are in range,
whatever its literals say. -/
theorem bounded_of_resolve_infer :
    (∀ (ctx : Context) (r : Relation), ctx.Every Scalar.Bounded →
      (∀ part ∈ r.nodes, part.Every Scalar.Bounded) →
      ∀ s, r.resolve ctx = .ok s → s.Every Scalar.Bounded) ∧
    (∀ (ctx : Context) (q : Query), ctx.Every Scalar.Bounded →
      (∀ part ∈ q.nodes, part.Every Scalar.Bounded) →
      ∀ s, q.resolve ctx = .ok s → s.Every Scalar.Bounded) ∧
    ∀ (scope : Scope) (e : Expr), scope.Every Scalar.Bounded →
      (∀ part ∈ e.nodes, part.Every Scalar.Bounded) →
      ∀ t, e.infer scope = .ok t → t.Every Scalar.Bounded := by
  refine ⟨fun ctx r hctx hparts => ?_, fun ctx q hctx hparts => ?_, fun scope e hscope hparts => ?_⟩
  · exact r.resolve_every ⟨Scalar.stable_bounded, hparts⟩ hctx fun _ h => h
  · exact q.resolve_every ⟨Scalar.stable_bounded, hparts⟩ hctx fun _ h => h
  · exact e.infer_every ⟨Scalar.stable_bounded, hparts⟩ hscope fun _ h => h

/-- A sum of a cast and of a literal with too many digits, and a time with too many digits, beside a
column of the largest scale. -/
theorem bounded_of_resolve_infer_sample :
    let column := Field.named (.quoted "d") (.array (.decimal 38 38))
    let r : Relation := .table (.single (.quoted "t")) (some (.ofFields [column]))
    let literal : Expr := .literal (.decimal "1234567890123456789012345678901234567890.5")
    let sum : Expr := .binary (.cast literal (.decimal 38 30) false) .add literal
    let q : Query := .ofBody (.select
      ⟨none, [.expr sum none, .expr (.typed "TIME" "12:00:00.1234567890123Z") none, .star none []],
        [r], none, none, none, []⟩)
    let ctx := Context.of (fun _ => none) {}
    let schema := Schema.ofFields
      [.anonymous (.decimal 38 30), .anonymous (.scalar (.time 12 true)), column]
    ctx.Every Scalar.Bounded ∧ (∀ part ∈ q.nodes, part.Every Scalar.Bounded) ∧
      (q.resolve ctx = .ok schema ∧ schema.Every Scalar.Bounded) ∧
      (∃ s, r.resolve ctx = .ok s ∧ s.Every Scalar.Bounded) ∧
      sum.infer (.of ctx .empty) = .ok (.decimal 38 30) ∧
      (DataType.decimal 38 30).Every Scalar.Bounded := by
  intro column r literal sum q ctx schema
  have hctx : ctx.Every Scalar.Bounded := ⟨nofun, nofun, nofun⟩
  have hcast : (DataType.decimal 38 30).Every Scalar.Bounded := ⟨by decide, by decide⟩
  have hcolumn : column.type.Every Scalar.Bounded := ⟨by decide, by decide⟩
  have hr : ∀ part ∈ r.nodes, part.Every Scalar.Bounded :=
    List.forall_mem_singleton.2 (List.forall_mem_singleton.2 hcolumn)
  have hsum : ∀ part ∈ sum.nodes, part.Every Scalar.Bounded := by
    simp [sum, literal, Expr.nodes, Node.Every, hcast]
  have hq : ∀ part ∈ q.nodes, part.Every Scalar.Bounded := by
    intro part hpart
    simp only [q, Query.ofBody, Query.nodes, With.nodes?, Body.nodes, Select.nodes,
      SelectItem.nodesAll, SelectItem.nodes, Relation.nodesAll, Expr.nodes, Expr.nodes?,
      GroupBy.nodes?, NamedWindow.nodesAll, OrderTerm.nodesAll, List.mem_append, List.mem_cons,
      List.not_mem_nil, List.nil_append, List.append_nil, or_false, or_assoc] at hpart
    rcases hpart with rfl | rfl | rfl | rfl | h | rfl | rfl | rfl | h
    all_goals first | exact hsum part h | exact hr part h | trivial
  have hresolve : q.resolve ctx = .ok schema := rfl
  exact ⟨hctx, hq, ⟨hresolve, bounded_of_resolve_infer.2.1 ctx q hctx hq _ hresolve⟩,
    ⟨_, rfl, bounded_of_resolve_infer.1 ctx r hctx hr _ rfl⟩,
    rfl, bounded_of_resolve_infer.2.2 _ sum (hctx.scope Schema.every_empty) hsum _ rfl⟩

end Sql
