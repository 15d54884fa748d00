import Sql.Proofs.TypeBounds

/-! The columns of a list of values. Every row is joined to the columns of those before it, so where
the common type of types does not depend on their order, the columns do not depend on the order of
the rows. -/
namespace Sql

/-! ### Steps that may come in any order -/

variable {α β : Type}

/-- A fold gives the same on a list in any order, if its step keeps a property under which two steps
may change places. -/
theorem foldlM_perm {f : β → α → Option β} {P : β → Prop} {Q : α → Prop}
    (hkeep : ∀ b a, P b → Q a → ∀ c ∈ f b a, P c)
    (hcomm : ∀ b x y, P b → Q x → Q y → (f b x).bind (f · y) = (f b y).bind (f · x))
    {as bs : List α} (h : as.Perm bs) :
    (∀ a ∈ as, Q a) → ∀ b, P b → as.foldlM f b = bs.foldlM f b := by
  induction h with
  | nil => exact fun _ _ _ => rfl
  | cons a h ih =>
    intro hQ b hb
    obtain ⟨ha, hQ⟩ := List.forall_mem_cons.1 hQ
    rw [List.foldlM_cons, List.foldlM_cons]
    exact Option.bind_congr fun c hc => ih hQ c (hkeep b a hb ha c hc)
  | swap x y as =>
    intro hQ b hb
    obtain ⟨hy, hQ⟩ := List.forall_mem_cons.1 hQ
    obtain ⟨hx, -⟩ := List.forall_mem_cons.1 hQ
    simp only [List.foldlM_cons]
    calc ((f b y).bind fun c => (f c x).bind fun c => as.foldlM f c)
        = ((f b y).bind (f · x)).bind fun c => as.foldlM f c := (Option.bind_assoc ..).symm
      _ = ((f b x).bind (f · y)).bind fun c => as.foldlM f c := by rw [hcomm b y x hb hy hx]
      _ = (f b x).bind fun c => (f c y).bind fun c => as.foldlM f c := Option.bind_assoc ..
  | trans h _ ih ih' =>
    intro hQ b hb
    rw [ih hQ b hb]
    exact ih' (fun a ha => hQ a (h.mem_iff.2 ha)) b hb

theorem toOption_bind (x : Except ResolveError α) (f : α → Except ResolveError β) :
    (x >>= f).toOption = x.toOption.bind fun a => (f a).toOption := by
  cases x <;> rfl

/-! ### Joining columns -/

theorem Scalar.stable_sized : Stable Sized where
  of_bounded _ h := h.sized
  supertype _ _ _ h ht hu := supertype?_sized h ht hu
  sum _ _ h := ⟨Nat.le_trans h.1 h.2, Nat.le_refl _⟩

namespace DataType

/-- The common types of columns, if there are as many on both sides. -/
def joinColumns : List DataType → List DataType → Option (List DataType)
  | [], [] => some []
  | t :: ts, u :: us => do
    let type ← t.supertype? u
    let types ← joinColumns ts us
    return type :: types
  | _, _ => none

/-- Columns as one value. -/
def ofColumns (types : List DataType) : DataType := .row (types.map fun type => ⟨none, type⟩)

variable {ts us vs : List DataType} {t u : DataType}

theorem agree_toOption (place : Place) : (t.agree place u).toOption = t.supertype? u := by
  unfold agree
  split <;> simp_all [Except.toOption]

theorem ofColumns_inj (h : ofColumns ts = ofColumns us) : ts = us := by
  have hmap := congrArg (List.map RowField.type) (DataType.row.inj h)
  simpa [Function.comp_def] using hmap

theorem sized_ofColumns : (ofColumns ts).Sized ↔ ∀ t ∈ ts, t.Sized := by
  refine RowField.everyAll_iff.trans ?_
  simp [Sized]

theorem length_of_joinColumns {ws : List DataType} (h : joinColumns ts us = some ws) :
    us.length = ts.length ∧ ws.length = ts.length := by
  induction ts generalizing us ws with
  | nil =>
    cases us <;> cases h
    exact ⟨rfl, rfl⟩
  | cons t ts ih =>
    cases us with
    | nil => cases h
    | cons u us =>
      obtain ⟨w, -, h⟩ := Option.bind_eq_some_iff.1 h
      obtain ⟨ws, hws, h⟩ := Option.bind_eq_some_iff.1 h
      cases h
      simp [ih hws]

/-- Columns are joined like the fields of rows without names. -/
theorem supertype?_ofColumns :
    (ofColumns ts).supertype? (ofColumns us) = (joinColumns ts us).map ofColumns := by
  suffices h : RowField.supertypes? (ts.map fun t => ⟨none, t⟩) (us.map fun t => ⟨none, t⟩) =
      (joinColumns ts us).map fun ws => ws.map fun t => ⟨none, t⟩ by
    rw [ofColumns, ofColumns, DataType.supertype?, h, Option.map_map]
    rfl
  induction ts generalizing us with
  | nil => cases us <;> rfl
  | cons t ts ih =>
    cases us with
    | nil => rfl
    | cons u us =>
      simp only [List.map_cons, RowField.supertypes?, RowField.supertype?, ih, joinColumns]
      cases t.supertype? u with
      | none => rfl
      | some w => cases joinColumns ts us <;> rfl

theorem joinColumns_sized {ws : List DataType} (h : joinColumns ts us = some ws)
    (hts : ∀ t ∈ ts, t.Sized) (hus : ∀ u ∈ us, u.Sized) : ∀ w ∈ ws, w.Sized := by
  have hjoin : (ofColumns ts).supertype? (ofColumns us) = some (ofColumns ws) := by
    rw [supertype?_ofColumns, h]
    rfl
  exact sized_ofColumns.1
    (supertype?_sized hjoin (sized_ofColumns.2 hts) (sized_ofColumns.2 hus))

/-- Two rows may change places, since the common type of three does not depend on their order. -/
theorem joinColumns_right_comm (hts : ∀ t ∈ ts, t.Sized) (hus : ∀ u ∈ us, u.Sized)
    (hvs : ∀ v ∈ vs, v.Sized) :
    ((joinColumns ts us).bind fun ws => joinColumns ws vs) =
      (joinColumns ts vs).bind fun ws => joinColumns ws us := by
  have ht := sized_ofColumns.2 hts
  have hu := sized_ofColumns.2 hus
  have hv := sized_ofColumns.2 hvs
  have hrow : ∀ us vs, ((joinColumns ts us).bind fun ws => joinColumns ws vs).map ofColumns =
      ((ofColumns ts).supertype? (ofColumns us)).bind fun w => w.supertype? (ofColumns vs) := by
    intro us vs
    simp only [supertype?_ofColumns, Option.map_bind, Option.bind_map, Function.comp_def]
  apply Option.map_injective fun _ _ => ofColumns_inj
  rw [hrow, hrow, supertype?_assoc ht hu hv, supertype?_assoc ht hv hu, supertype?_comm hu hv]

end DataType

/-! ### Rows of values -/

namespace Expr

/-- The expressions in the columns of a row of values. -/
def cells : Expr → List Expr
  | .row items => items
  | e => [e]

/-- The columns after one more row. -/
def joinRow (s : Scope) (columns : List DataType) (e : Expr) : Option (List DataType) :=
  (Expr.infers s e.cells).toOption.bind (DataType.joinColumns columns)

variable {s : Scope} {columns : List DataType} {e : Expr}

theorem length_cells (e : Expr) : e.cells.length = e.width := by
  cases e <;> rfl

theorem length_of_infers {es : List Expr} {types : List DataType}
    (h : Expr.infers s es = .ok types) : types.length = es.length := by
  induction es generalizing types with
  | nil =>
    cases h
    rfl
  | cons e es ih =>
    simp only [Expr.infers] at h
    obtain ⟨t, -, h⟩ := bind_eq_ok_iff.1 h
    obtain ⟨ts, hts, h⟩ := bind_eq_ok_iff.1 h
    cases h
    rw [List.length_cons, List.length_cons, ih hts]

theorem toOption_inferCells (position : Nat) {es : List Expr} (h : es.length = columns.length) :
    (Expr.inferCells s position columns es).toOption =
      (Expr.infers s es).toOption.bind (DataType.joinColumns columns) := by
  induction es generalizing position columns with
  | nil =>
    obtain rfl := List.length_eq_zero_iff.1 h.symm
    rfl
  | cons e es ih =>
    cases columns with
    | nil => cases h
    | cons column columns =>
      have hrest := ih (position + 1) (Nat.succ.inj h)
      simp only [Expr.inferCells, Expr.infers, toOption_bind, DataType.agree_toOption, hrest]
      cases (e.infer s).toOption with
      | none => rfl
      | some t =>
        cases ht : column.supertype? t <;> cases (Expr.infers s es).toOption <;>
          simp [DataType.joinColumns, ht, Except.toOption, pure, Except.pure]

theorem length_of_joinRow {columns' : List DataType} (h : joinRow s columns e = some columns') :
    e.width = columns.length ∧ columns'.length = columns.length := by
  obtain ⟨types, htypes, h⟩ := Option.bind_eq_some_iff.1 h
  obtain ⟨hlen, hlen'⟩ := DataType.length_of_joinColumns h
  cases hinfers : Expr.infers s e.cells with
  | error => simp [hinfers, Except.toOption] at htypes
  | ok types' =>
    rw [hinfers] at htypes
    cases htypes
    rw [← length_cells, ← length_of_infers hinfers]
    exact ⟨hlen, hlen'⟩

/-- A value alone is joined to the only column. -/
theorem toOption_single (h : columns.length = 1)
    (next : List DataType → Except ResolveError (List DataType)) :
    (do
      let type ← e.infer s
      let columns ← columns.mapM fun column => DataType.agree (.valuesColumn 0) column type
      next columns).toOption =
      ((Expr.infers s [e]).toOption.bind (DataType.joinColumns columns)).bind fun columns =>
        (next columns).toOption := by
  obtain ⟨column, rfl⟩ := List.length_eq_one_iff.1 h
  simp only [Expr.infers, toOption_bind, List.mapM_cons, List.mapM_nil, DataType.agree_toOption]
  cases (e.infer s).toOption with
  | none => rfl
  | some t =>
    cases ht : column.supertype? t <;>
      simp [DataType.joinColumns, ht, Except.toOption, pure, Except.pure]

/-- A row of another width than the columns before it fails, as does one with a cell of another
type. -/
theorem toOption_inferRows_cons (row : Nat) (es : List Expr) :
    (Expr.inferRows s row columns (e :: es)).toOption =
      (joinRow s columns e).bind fun columns =>
        (Expr.inferRows s (row + 1) columns es).toOption := by
  have hnone : e.width ≠ columns.length → joinRow s columns e = none := by
    intro hwidth
    cases h : joinRow s columns e with
    | none => rfl
    | some columns' => exact absurd (length_of_joinRow h).1 hwidth
  cases e with
  | row items =>
    simp only [Expr.inferRows]
    split
    · rename_i hwidth
      rw [hnone hwidth]
      rfl
    · rename_i hwidth
      have hcells := toOption_inferCells (s := s) 0 (Decidable.not_not.1 hwidth)
      simp only [toOption_bind, hcells]
      rfl
  | _ =>
    simp only [Expr.inferRows]
    split
    · rename_i hwidth
      rw [hnone (Ne.symm hwidth)]
      rfl
    · exact toOption_single (Decidable.not_not.1 ‹_›) _

theorem toOption_inferRows (row : Nat) (es : List Expr) :
    (Expr.inferRows s row columns es).toOption = es.foldlM (joinRow s) columns := by
  induction es generalizing row columns with
  | nil => rfl
  | cons e es ih =>
    rw [toOption_inferRows_cons, List.foldlM_cons]
    exact Option.bind_congr fun columns' _ => ih (row + 1)

/-- All rows are as wide as the columns before them. -/
theorem width_of_foldlM {es : List Expr} {columns' : List DataType}
    (h : es.foldlM (joinRow s) columns = some columns') : ∀ e ∈ es, e.width = columns.length := by
  induction es generalizing columns with
  | nil => exact nofun
  | cons e es ih =>
    rw [List.foldlM_cons] at h
    obtain ⟨next, hnext, h⟩ := Option.bind_eq_some_iff.1 h
    obtain ⟨hwidth, hlen⟩ := length_of_joinRow hnext
    refine List.forall_mem_cons.2 ⟨hwidth, ?_⟩
    rw [← hlen]
    exact ih h

/-- The types of the cells of a row are as they should be. -/
def SizedCells (s : Scope) (e : Expr) : Prop :=
  Yields (fun types => ∀ t ∈ types, t.Sized) (Expr.infers s e.cells)

theorem sizedCells {parts : List Node} (g : Given Scalar.Sized parts)
    (hs : s.Every Scalar.Sized) {rows : List Expr} (hparts : Among parts (Expr.nodesAll rows)) :
    ∀ e ∈ rows, SizedCells s e := by
  induction rows with
  | nil => exact nofun
  | cons e rows ih =>
    refine List.forall_mem_cons.2 ⟨?_, ih hparts.right⟩
    have he := Expr.infers_every g hs [e] (by simpa [Expr.nodesAll] using hparts.left)
    cases e with
    | row items => exact Expr.infers_every g hs items hparts.left.tail
    | _ => exact he

theorem joinRow_sized (hcolumns : ∀ t ∈ columns, t.Sized) (he : SizedCells s e) :
    ∀ columns' ∈ joinRow s columns e, ∀ t ∈ columns', t.Sized := by
  intro columns' h
  obtain ⟨types, htypes, h⟩ := Option.bind_eq_some_iff.1 h
  refine DataType.joinColumns_sized h hcolumns (he types ?_)
  cases hinfers : Expr.infers s e.cells <;> rw [hinfers] at htypes <;> cases htypes
  rfl

theorem joinRow_right_comm {f : Expr} (hcolumns : ∀ t ∈ columns, t.Sized) (he : SizedCells s e)
    (hf : SizedCells s f) :
    ((joinRow s columns e).bind fun columns => joinRow s columns f) =
      (joinRow s columns f).bind fun columns => joinRow s columns e := by
  unfold joinRow
  cases hus : Expr.infers s e.cells with
  | error => cases Expr.infers s f.cells <;> simp [Except.toOption]
  | ok us =>
    cases hvs : Expr.infers s f.cells with
    | error => simp [Except.toOption]
    | ok vs => exact DataType.joinColumns_right_comm hcolumns (he us hus) (hf vs hvs)

/-- Where the rows can be joined, they are all as wide as the first, whichever of them that is. -/
theorem unknownColumns_perm {rows rows' : List Expr} (h : rows.Perm rows') {columns : List DataType}
    (hfold : rows.foldlM (joinRow s) (Expr.unknownColumns rows) = some columns) :
    Expr.unknownColumns rows' = Expr.unknownColumns rows := by
  have hwidth := width_of_foldlM hfold
  cases rows with
  | nil => rw [h.nil_eq]
  | cons e rows =>
    cases rows' with
    | nil => exact absurd h.eq_nil (List.cons_ne_nil _ _)
    | cons e' rows' =>
      have he' : e'.width = (List.replicate e.width DataType.unknown).length :=
        hwidth e' (h.mem_iff.2 List.mem_cons_self)
      rw [List.length_replicate] at he'
      exact congrArg (List.replicate · DataType.unknown) he'

theorem inferRows_perm {rows rows' : List Expr} (hs : s.Every Scalar.Sized)
    (hparts : ∀ part ∈ Expr.nodesAll rows, part.Every Scalar.Sized) (h : rows.Perm rows') :
    (Expr.inferRows s 0 (Expr.unknownColumns rows) rows).toOption =
      (Expr.inferRows s 0 (Expr.unknownColumns rows') rows').toOption := by
  have hcells := sizedCells ⟨Scalar.stable_sized, hparts⟩ hs (List.Subset.refl _)
  have hfold (columns : List DataType) (hcolumns : ∀ t ∈ columns, t.Sized) :
      rows.foldlM (joinRow s) columns = rows'.foldlM (joinRow s) columns :=
    foldlM_perm (f := joinRow s) (P := fun columns => ∀ t ∈ columns, t.Sized) (Q := SizedCells s)
      (fun _ _ hc he => joinRow_sized hc he) (fun _ _ _ hc he hf => joinRow_right_comm hc he hf)
      h hcells columns hcolumns
  rw [toOption_inferRows, toOption_inferRows]
  apply Option.ext
  intro columns
  constructor
  · intro hrows
    rw [unknownColumns_perm h hrows, ← hfold _ (unknownColumns_every rows)]
    exact hrows
  · intro hrows
    rw [unknownColumns_perm h.symm hrows, hfold _ (unknownColumns_every rows')]
    exact hrows

end Expr

/-- Where the decimals of all tables, bindings and columns in sight, of all casts and of all schemas
known ahead are as they should be, a list of values has the same columns whatever the order of its
rows, or none in any order. -/
theorem resolve_values_perm {rows rows' : List Expr} (h : rows.Perm rows') (ctx : Context)
    (hctx : ctx.Every Scalar.Sized)
    (hparts : ∀ part ∈ Expr.nodesAll rows, part.Every Scalar.Sized) :
    ((Relation.values rows).resolve ctx).toOption =
        ((Relation.values rows').resolve ctx).toOption ∧
      ((Body.values rows).resolve ctx).toOption = ((Body.values rows').resolve ctx).toOption := by
  have hrows := Expr.inferRows_perm (hctx.scope Schema.every_empty) hparts h
  have hrelation : ((Relation.values rows).resolve ctx).toOption =
      ((Relation.values rows').resolve ctx).toOption := by
    rw [Relation.resolve, Relation.resolve, toOption_bind, toOption_bind, hrows]
  refine ⟨hrelation, ?_⟩
  rw [Body.resolve, Body.resolve, toOption_bind, toOption_bind, hrows]

/-- Decimals that lose digits at the largest precision, a value of unknown type and a subquery. -/
theorem resolve_values_perm_sample :
    let null : Expr := .literal .null
    let table : Relation :=
      .table (.single (.quoted "t")) (some (.ofFields [.named (.quoted "c") (.scalar (.char 5))]))
    let query : Query := .ofBody (.select ⟨none, [.star none []], [table], none, none, none, []⟩)
    let a : Expr := .row [.cast null (.decimal 38 10) false, .string "ab"]
    let b : Expr := .row [.cast null (.decimal 38 30) false, null]
    let c : Expr := .row [.integer 1, .subquery query]
    let ctx := Context.of (fun _ => none) {}
    let schema := Schema.ofFields (Schema.generated [.decimal 38 30, .scalar (.char 5)])
    ([a, b] ++ [c]).Perm ([c] ++ [a, b]) ∧ ctx.Every Scalar.Sized ∧
      (∀ part ∈ Expr.nodesAll ([a, b] ++ [c]), part.Every Scalar.Sized) ∧
      (Relation.values ([a, b] ++ [c])).resolve ctx = .ok schema ∧
      ((Relation.values ([c] ++ [a, b])).resolve ctx).toOption = some schema ∧
      ((Body.values ([c] ++ [a, b])).resolve ctx).toOption = some schema := by
  intro null table query a b c ctx schema
  have hperm : ([a, b] ++ [c]).Perm ([c] ++ [a, b]) := List.perm_append_comm
  have hctx : ctx.Every Scalar.Sized := ⟨nofun, nofun, nofun⟩
  have hparts : ∀ part ∈ Expr.nodesAll ([a, b] ++ [c]), part.Every Scalar.Sized := by
    have hcolumn : (DataType.scalar (.char 5)).Every Scalar.Sized := trivial
    have hten : (DataType.decimal 38 10).Every Scalar.Sized := ⟨by decide, by decide⟩
    have hthirty : (DataType.decimal 38 30).Every Scalar.Sized := ⟨by decide, by decide⟩
    have htable : (Schema.ofFields [.named (.quoted "c") (.scalar (.char 5))]).Every Scalar.Sized :=
      List.forall_mem_singleton.2 hcolumn
    simp [a, b, c, null, query, table, Expr.string, Expr.integer, Query.ofBody, Expr.nodesAll,
      Expr.nodes, Query.nodes, With.nodes?, Body.nodes, Select.nodes, SelectItem.nodesAll,
      SelectItem.nodes, Relation.nodesAll, Relation.nodes, Expr.nodes?, GroupBy.nodes?,
      NamedWindow.nodesAll, OrderTerm.nodesAll, Node.Every, hten, hthirty, htable]
  have hresolve : (Relation.values ([a, b] ++ [c])).resolve ctx = .ok schema := rfl
  obtain ⟨hrelation, hbody⟩ := resolve_values_perm hperm ctx hctx hparts
  exact ⟨hperm, hctx, hparts, hresolve, hrelation.symm.trans (congrArg Except.toOption hresolve),
    hbody.symm.trans (congrArg Except.toOption hresolve)⟩

end Sql
