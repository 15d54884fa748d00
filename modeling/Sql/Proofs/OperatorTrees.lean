import Sql.Proofs.Keys
import Sql.Proofs.Regrouping
import Sql.Proofs.Results
import Sql.Proofs.RoundTrip
import Sql.Tree.Same

/-! Trees of operators: the parser gives back the tree that was printed. Names are printed between
quotes, where a name without quotes stays the name it is only if it has no capitals. -/
namespace Sql

/-- A name between quotes that can be written. -/
def Ident.IsQuoted (x : Ident) : Prop := x.delimited = true ∧ x.text ≠ ""

/-- A name that can be written, and has no capitals unless it has quotes: quotes leave it the name
it is. -/
def Ident.IsQuotable (x : Ident) : Prop :=
  (x.delimited = true ∨ x.text.toLower = x.text) ∧ x.text ≠ ""

def Name.IsQuoted (n : Name) : Prop := ∀ x ∈ n.parts, x.IsQuoted

/-- Literals other than decimals and doubles; integers have no sign of their own. -/
def Literal.IsPlain : Literal → Prop
  | .integer n => 0 ≤ n
  | .decimal _ | .double _ => False
  | _ => True

section

variable (Called Member : Ident → Prop)

/-- Trees of operators, constructors and plain calls over literals and quoted columns, with some
functions and parameters, and some fields. No operator that is written without parentheses has
itself as its right operand. -/
inductive Expr.IsOperatorTree : Expr → Prop
  | literal {v : Literal} : v.IsPlain → IsOperatorTree (.literal v)
  | column {n : Name} : n.IsQuoted → IsOperatorTree (.column n)
  | binary {l r : Expr} {op : BinaryOp} : IsOperatorTree l → IsOperatorTree r →
      (op.isAssociative = true → r.isBinaryOf op = false) → IsOperatorTree (.binary l op r)
  | unary {op : UnaryOp} {e : Expr} : IsOperatorTree e → IsOperatorTree (.unary op e)
  | isNull {e : Expr} {negated : Bool} : IsOperatorTree e → IsOperatorTree (.isNull e negated)
  | isDistinct {l r : Expr} {negated : Bool} : IsOperatorTree l → IsOperatorTree r →
      IsOperatorTree (.isDistinct l r negated)
  | like {e p : Expr} {escape : Option Expr} {negated : Bool} : IsOperatorTree e →
      IsOperatorTree p → (∀ c ∈ escape, IsOperatorTree c) →
      IsOperatorTree (.like e p escape negated)
  | between {e low high : Expr} {negated : Bool} : IsOperatorTree e → IsOperatorTree low →
      IsOperatorTree high → IsOperatorTree (.between e low high negated)
  | inList {e : Expr} {items : List Expr} {negated : Bool} : IsOperatorTree e → items ≠ [] →
      (∀ x ∈ items, IsOperatorTree x) → IsOperatorTree (.inList e items negated)
  | caseWhen {operand otherwise : Option Expr} {branches : List (Expr × Expr)} :
      (∀ x ∈ operand, IsOperatorTree x) → branches ≠ [] →
      (∀ b ∈ branches, IsOperatorTree b.1) → (∀ b ∈ branches, IsOperatorTree b.2) →
      (∀ x ∈ otherwise, IsOperatorTree x) → IsOperatorTree (.caseWhen operand branches otherwise)
  | array {items : List Expr} : (∀ x ∈ items, IsOperatorTree x) → IsOperatorTree (.array items)
  | row {items : List Expr} : (∀ x ∈ items, IsOperatorTree x) → IsOperatorTree (.row items)
  | subscript {base index : Expr} : IsOperatorTree base → IsOperatorTree index →
      IsOperatorTree (.subscript base index)
  | field {base : Expr} {x : Ident} : IsOperatorTree base →
      (∀ n, base ≠ .literal (.integer n)) → Member x → IsOperatorTree (.field base x)
  | lambda {params : List Ident} {body : Expr} : params ≠ [] →
      Ident.firstRepeated? [] params = none → (∀ x ∈ params, Called x) → IsOperatorTree body →
      IsOperatorTree (.lambda params body)
  | call {name : Name} {args : List Expr} : (∀ x ∈ name.parts, Called x) →
      (∀ x ∈ args, IsOperatorTree x) → IsOperatorTree (.call (.plain name args))

end

/-- All names are quoted. -/
def Expr.IsQuotedTree (e : Expr) : Prop := e.IsOperatorTree Ident.IsQuoted Ident.IsQuoted

/-! ### Names -/

theorem Ident.IsQuoted.key {x : Ident} (h : x.IsQuoted) : x.key = x.text := by
  simp [Ident.key, h.1]

theorem Name.IsQuoted.named {n : Name} (h : n.IsQuoted) : n.Named := fun x hx => (h x hx).2

theorem Name.IsQuoted.delimited {n : Name} (h : n.IsQuoted) : n.Delimited := fun x hx => (h x hx).1

/-- Names that pass the check of parameters have different texts if they are quoted. -/
theorem Ident.nodup_of_firstRepeated {seen xs : List Ident} (hseen : ∀ x ∈ seen, x.IsQuoted)
    (hxs : ∀ x ∈ xs, x.IsQuoted) (h : firstRepeated? seen xs = none) :
    (xs.map Ident.text).Nodup ∧ ∀ x ∈ xs, x.text ∉ seen.map Ident.text := by
  induction xs generalizing seen with
  | nil => simp
  | cons x xs ih =>
    rw [firstRepeated?] at h
    split at h
    · simp at h
    · rename_i hfresh
      have hx := hxs x (by simp)
      have hall : ∀ y ∈ x :: seen, y.IsQuoted := by simpa [hx] using hseen
      obtain ⟨hnodup, hnew⟩ := ih hall (fun y hy => hxs y (by simp [hy])) h
      have hfirst : x.text ∉ seen.map Ident.text := by
        intro hmem
        obtain ⟨y, hy, hxy⟩ := List.mem_map.1 hmem
        refine hfresh (List.any_eq_true.2 ⟨y, hy, ?_⟩)
        simp [same, hx.key, (hseen y hy).key, hxy]
      simp only [List.map_cons, List.mem_cons, not_or] at hnew
      refine ⟨List.nodup_cons.2 ⟨?_, hnodup⟩, ?_⟩
      · intro hmem
        obtain ⟨y, hy, hyx⟩ := List.mem_map.1 hmem
        exact (hnew y hy).1 hyx
      · intro y hy
        rcases List.mem_cons.1 hy with rfl | hy
        · exact hfirst
        · exact (hnew y hy).2

/-! ### Each part of a tree is read back where it stands -/

section

variable {P : Node → Prop}

theorem Expr.forall_nodesAll {es : List Expr} :
    (∀ n ∈ Expr.nodesAll es, P n) ↔ ∀ e ∈ es, ∀ n ∈ e.nodes, P n := by
  simp only [Expr.nodesAll_eq, List.mem_flatMap]
  exact ⟨fun h e he n hn => h n ⟨e, he, hn⟩, fun h n ⟨e, he, hn⟩ => h e he n hn⟩

theorem Expr.forall_nodes? {e : Option Expr} :
    (∀ n ∈ Expr.nodes? e, P n) ↔ ∀ x ∈ e, ∀ n ∈ x.nodes, P n := by
  cases e <;> simp [Expr.nodes?]

theorem Expr.forall_branchNodes {bs : List (Expr × Expr)} :
    (∀ n ∈ Expr.branchNodes bs, P n) ↔
      ∀ b ∈ bs, (∀ n ∈ b.1.nodes, P n) ∧ ∀ n ∈ b.2.nodes, P n := by
  induction bs with
  | nil => simp [Expr.branchNodes]
  | cons b bs ih =>
    obtain ⟨c, v⟩ := b
    simp only [Expr.branchNodes, List.forall_mem_append, ih, List.forall_mem_cons, and_assoc]

end

theorem Name.IsQuoted.base {n : Name} (h : n.IsQuoted) : n.base.IsQuoted :=
  h n.base (by simp [Name.parts])

theorem Literal.IsPlain.fixed {v : Literal} (h : v.IsPlain) : (Node.expr (.literal v)).Fixed := by
  have hdouble : ∀ d, v ≠ .double d := by
    rintro d rfl
    exact h
  refine ⟨⟨?_, ?_, rfl⟩, rfl, rfl⟩
  · cases v <;> simp_all [Literal.IsPlain, Node.Sound, Expr.Sound, Literal.Sound]
  · cases v <;> simp_all [Node.Settled, Expr.Settled]

namespace Expr.IsQuotedTree

theorem takesField {e : Expr} (h : e.IsQuotedTree)
    (hint : ∀ n, e ≠ .literal (.integer n)) : e.takesField = true := by
  cases h with
  | literal hv =>
    rename_i v
    cases v with
    | integer n => exact (hint n rfl).elim
    | decimal => exact hv.elim
    | _ => rfl
  | @call name _ hname =>
    have hbase := Name.IsQuoted.base hname
    simp [Expr.takesField, Call.isBare, Call.plain, Name.isBare, hbase.1]
  | _ => rfl

theorem call_sound {name : Name} (args : List Expr) (h : name.IsQuoted) :
    (Call.plain name args).Sound := by
  refine ⟨fun x hx => ?_, fun _ => ?_, fun _ => ⟨rfl, rfl⟩⟩
  · simp [Ident.Spelled, (h x hx).1, Ident.Named, (h x hx).2]
  · simp [Ident.opensConstruct, Call.plain, h.base.1]

/-- Every part of a quoted tree is read back where it stands. -/
theorem fixed {e : Expr} (h : e.IsQuotedTree) : ∀ n ∈ e.nodes, n.Fixed := by
  induction h with
  | literal hv => simpa [nodes] using hv.fixed
  | column hn =>
    simp only [nodes, List.forall_mem_singleton]
    exact ⟨⟨hn.named, hn.delimited, rfl⟩, rfl, rfl⟩
  | @binary l r op hl hr hop ihl ihr =>
    have hsettled : (r.isBinaryOf op && op.isAssociative) = false := by
      cases ha : op.isAssociative with
      | false => simp
      | true => simp [hop ha]
    simp only [nodes, List.forall_mem_cons, List.forall_mem_append]
    exact ⟨⟨⟨trivial, hsettled, rfl⟩, rfl, rfl⟩, ihl, ihr⟩
  | unary _ ih | isNull _ ih =>
    simp only [nodes, List.forall_mem_cons]
    exact ⟨⟨⟨trivial, trivial, rfl⟩, rfl, rfl⟩, ih⟩
  | isDistinct _ _ ihl ihr | subscript _ _ ihl ihr =>
    simp only [nodes, List.forall_mem_cons, List.forall_mem_append]
    exact ⟨⟨⟨trivial, trivial, rfl⟩, rfl, rfl⟩, ihl, ihr⟩
  | like _ _ _ ihe ihp ihc =>
    simp only [nodes, List.forall_mem_cons, List.forall_mem_append, forall_nodes?]
    exact ⟨⟨⟨trivial, trivial, rfl⟩, rfl, rfl⟩, ihe, ihp, ihc⟩
  | between _ _ _ ihe ihl ihh =>
    simp only [nodes, List.forall_mem_cons, List.forall_mem_append]
    exact ⟨⟨⟨trivial, trivial, rfl⟩, rfl, rfl⟩, ihe, ihl, ihh⟩
  | @inList e items _ _ hne hitems ihe ihs =>
    have hquery : ∀ q, items ≠ [.subquery q] := by
      rintro q rfl
      cases hitems (.subquery q) (by simp)
    simp only [nodes, List.forall_mem_cons, List.forall_mem_append, forall_nodesAll]
    exact ⟨⟨⟨⟨hne, hquery⟩, trivial, rfl⟩, rfl, rfl⟩, ihe, ihs⟩
  | caseWhen _ hne _ _ _ iho ihc ihv ihe =>
    simp only [nodes, List.forall_mem_cons, List.forall_mem_append, forall_nodes?,
      forall_branchNodes]
    exact ⟨⟨⟨hne, trivial, rfl⟩, rfl, rfl⟩, iho, fun b hb => ⟨ihc b hb, ihv b hb⟩, ihe⟩
  | array _ ih | row _ ih =>
    simp only [nodes, List.forall_mem_cons, forall_nodesAll]
    exact ⟨⟨⟨trivial, trivial, rfl⟩, rfl, rfl⟩, ih⟩
  | field hbase hint hx ih =>
    simp only [nodes, List.forall_mem_cons]
    exact ⟨⟨⟨hx.2, hx.1, takesField hbase hint⟩, rfl, rfl⟩, ih⟩
  | lambda hne hfresh hps _ ih =>
    have hnodup := (Ident.nodup_of_firstRepeated (by simp) hps hfresh).1
    simp only [nodes, List.forall_mem_cons]
    exact ⟨⟨⟨⟨hne, fun x hx => (hps x hx).2⟩, fun x hx => (hps x hx).1, by
      simpa [Node.steady, steady] using hnodup⟩, rfl, rfl⟩, ih⟩
  | @call name args hname _ ih =>
    simp only [nodes, Call.plain, Call.nodes, OrderTerm.nodesAll, nodes?, Over.nodes?,
      List.append_nil, List.forall_mem_cons, forall_nodesAll]
    exact ⟨⟨⟨trivial, trivial, rfl⟩, rfl, rfl⟩,
      ⟨⟨call_sound args hname, trivial, rfl⟩, rfl, rfl⟩, ih⟩

end Expr.IsQuotedTree

/-! ### The normal form of a tree -/

theorem Ident.IsQuoted.delimit {x : Ident} (h : x.IsQuoted) : x.delimit = x := by
  obtain ⟨text, delimited⟩ := x
  obtain rfl : delimited = true := h.1
  rfl

theorem Ident.IsQuotable.delimit {x : Ident} (h : x.IsQuotable) : x.delimit.IsQuoted :=
  ⟨rfl, h.2⟩

theorem Ident.IsQuotable.same {x : Ident} (h : x.IsQuotable) : x.delimit.same x = true := by
  obtain ⟨text, delimited⟩ := x
  cases delimited with
  | true => exact same_iff.2 rfl
  | false => exact same_iff.2 (h.1.resolve_left Bool.false_ne_true).symm

theorem Ident.delimit_map {xs : List Ident} (h : ∀ x ∈ xs, x.IsQuoted) :
    xs.map Ident.delimit = xs := by
  rw [List.map_congr_left fun x hx => (h x hx).delimit, List.map_id']

theorem Name.IsQuoted.delimit {n : Name} (h : n.IsQuoted) : n.delimit = n := by
  have hqualifier := Ident.delimit_map fun x hx => h x (List.mem_append_left _ hx)
  rw [Name.delimit, hqualifier, h.base.delimit]

theorem sameList_refl (xs : List Ident) : sameList Ident.same xs xs = true :=
  sameList_same_iff.2 rfl

theorem Literal.IsPlain.normal {v : Literal} (h : v.IsPlain) : v.normal = .literal v := by
  cases v with
  | integer n => rw [Literal.normal, if_neg (Int64.not_lt.2 h)]
  | decimal | double => exact h.elim
  | _ => rfl

theorem Literal.IsPlain.same {v : Literal} (h : v.IsPlain) : v.same v = true := by
  cases v with
  | decimal | double => exact h.elim
  | _ => simp [Literal.same]

namespace Expr

theorem forall_normals {P : Expr → Prop} {es : List Expr} :
    (∀ x ∈ normals es, P x) ↔ ∀ e ∈ es, P e.normal := by
  rw [normals_eq, List.forall_mem_map]

theorem forall_normal? {P : Expr → Prop} {e : Option Expr} :
    (∀ x ∈ normal? e, P x) ↔ ∀ x ∈ e, P x.normal := by
  cases e <;> simp [normal?]

theorem normalBranches_eq (bs : List (Expr × Expr)) :
    normalBranches bs = bs.map fun b => (b.1.normal, b.2.normal) := by
  induction bs with
  | nil => rfl
  | cons b bs ih => rw [normalBranches, ih, List.map_cons]

section

variable {es : List Expr} {e : Option Expr} {bs : List (Expr × Expr)}

theorem sameAll_normals (h : ∀ x ∈ es, x.normal.same x = true) :
    sameAll (normals es) es = true := by
  induction es with
  | nil => rfl
  | cons x es ih =>
    obtain ⟨hx, hes⟩ := List.forall_mem_cons.1 h
    rw [normals, sameAll, hx, ih hes]
    rfl

theorem sameOpt_normal? (h : ∀ x ∈ e, x.normal.same x = true) :
    sameOpt (normal? e) e = true := by
  cases e with
  | none => rfl
  | some x => exact h x rfl

theorem sameBranches_normal (hc : ∀ b ∈ bs, b.1.normal.same b.1 = true)
    (hv : ∀ b ∈ bs, b.2.normal.same b.2 = true) : sameBranches (normalBranches bs) bs = true := by
  induction bs with
  | nil => rfl
  | cons b bs ih =>
    obtain ⟨hb, hc⟩ := List.forall_mem_cons.1 hc
    obtain ⟨hb', hv⟩ := List.forall_mem_cons.1 hv
    rw [normalBranches, sameBranches, hb, hb', ih hc hv]
    rfl

theorem depthAll_normals (h : ∀ x ∈ es, x.normal.depth = x.depth) :
    depthAll (normals es) = depthAll es := by
  induction es with
  | nil => rfl
  | cons x es ih =>
    obtain ⟨hx, hes⟩ := List.forall_mem_cons.1 h
    rw [normals, depthAll, hx, ih hes, depthAll]

theorem depth?_normal? (h : ∀ x ∈ e, x.normal.depth = x.depth) :
    depth? (normal? e) = depth? e := by
  cases e with
  | none => rfl
  | some x => exact h x rfl

theorem escapeDepth_normal? (h : ∀ x ∈ e, x.normal.depth = x.depth) :
    escapeDepth (normal? e) = escapeDepth e := by
  cases e with
  | none => rfl
  | some x => rw [normal?, escapeDepth, escapeDepth, x.alike_normal.isLooser, h x rfl]

theorem branchDepth_normal (hc : ∀ b ∈ bs, b.1.normal.depth = b.1.depth)
    (hv : ∀ b ∈ bs, b.2.normal.depth = b.2.depth) :
    branchDepth (normalBranches bs) = branchDepth bs := by
  induction bs with
  | nil => rfl
  | cons b bs ih =>
    obtain ⟨hb, hc⟩ := List.forall_mem_cons.1 hc
    obtain ⟨hb', hv⟩ := List.forall_mem_cons.1 hv
    rw [normalBranches, branchDepth, branchDepth, hb, hb', ih hc hv]

theorem normals_self (h : ∀ x ∈ es, x.normal = x) : normals es = es := by
  rw [normals_eq, List.map_congr_left h, List.map_id']

theorem normal?_self (h : ∀ x ∈ e, x.normal = x) : normal? e = e := by
  cases e with
  | none => rfl
  | some x => rw [normal?, h x rfl]

theorem normalBranches_self (hc : ∀ b ∈ bs, b.1.normal = b.1) (hv : ∀ b ∈ bs, b.2.normal = b.2) :
    normalBranches bs = bs := by
  rw [normalBranches_eq, List.map_congr_left fun b hb => Prod.ext (hc b hb) (hv b hb), List.map_id']

end

/-- Operands that are not regrouped. -/
theorem normal_binary {l r : Expr} {op : BinaryOp}
    (h : op.isAssociative = true → r.isBinaryOf op = false) :
    (binary l op r).normal = .binary l.normal op r.normal := by
  rw [normal, regroup, if_neg]
  rw [r.alike_normal.operator, Bool.and_eq_true]
  rintro ⟨hr, hop⟩
  rw [h hop] at hr
  cases hr

namespace IsOperatorTree

variable {e : Expr} {Called Member : Ident → Prop}

theorem normal_ne_integer (h : e.IsOperatorTree Called Member) (n : Int64)
    (hne : e ≠ .literal (.integer n)) : e.normal ≠ .literal (.integer n) := by
  cases h with
  | literal hv => rwa [normal, hv.normal]
  | binary _ _ hop =>
    rw [normal_binary hop]
    rintro ⟨⟩
  | _ => rintro ⟨⟩

/-- The names of the normal form are quoted. -/
theorem normal (h : e.IsOperatorTree Ident.IsQuoted Ident.IsQuotable) :
    e.normal.IsQuotedTree := by
  induction h with
  | literal hv =>
    rw [Expr.normal, hv.normal]
    exact .literal hv
  | column hn =>
    rw [Expr.normal, hn.delimit]
    exact .column hn
  | @binary l r op _ _ hop ihl ihr =>
    rw [normal_binary hop]
    refine .binary ihl ihr fun hassoc => ?_
    rw [r.alike_normal.operator, hop hassoc]
  | unary _ ih => exact .unary ih
  | isNull _ ih => exact .isNull ih
  | isDistinct _ _ ihl ihr => exact .isDistinct ihl ihr
  | like _ _ _ ihe ihp ihc => exact .like ihe ihp (forall_normal?.2 ihc)
  | between _ _ _ ihe ihl ihh => exact .between ihe ihl ihh
  | inList _ hne _ ihe ihs =>
    refine .inList ihe ?_ (forall_normals.2 ihs)
    rw [normals_eq]
    exact List.map_eq_nil_iff.not.2 hne
  | caseWhen _ hne _ _ _ iho ihc ihv ihe =>
    rw [Expr.normal, normalBranches_eq]
    exact .caseWhen (forall_normal?.2 iho) (List.map_eq_nil_iff.not.2 hne)
      (List.forall_mem_map.2 ihc) (List.forall_mem_map.2 ihv) (forall_normal?.2 ihe)
  | array _ ih => exact .array (forall_normals.2 ih)
  | row _ ih => exact .row (forall_normals.2 ih)
  | subscript _ _ ihb ihi => exact .subscript ihb ihi
  | field hbase hint hx ih =>
    exact .field ih (fun n => hbase.normal_ne_integer n (hint n)) hx.delimit
  | lambda hne hfresh hps _ ih =>
    rw [Expr.normal, Ident.delimit_map hps]
    exact .lambda hne hfresh hps ih
  | call hname _ ih => exact .call hname (forall_normals.2 ih)

/-- The normal form is the same tree up to the spelling of names. -/
theorem same_normal (h : e.IsOperatorTree Ident.IsQuoted Ident.IsQuotable) :
    e.normal.same e = true := by
  induction h with
  | literal hv =>
    rw [Expr.normal, hv.normal]
    exact hv.same
  | column hn =>
    rw [Expr.normal, hn.delimit]
    exact sameList_refl _
  | binary _ _ hop ihl ihr =>
    rw [normal_binary hop]
    simp [same, ihl, ihr]
  | unary _ ih | isNull _ ih => simp [Expr.normal, same, ih]
  | isDistinct _ _ ihl ihr | subscript _ _ ihl ihr => simp [Expr.normal, same, ihl, ihr]
  | like _ _ _ ihe ihp ihc => simp [Expr.normal, same, ihe, ihp, sameOpt_normal? ihc]
  | between _ _ _ ihe ihl ihh => simp [Expr.normal, same, ihe, ihl, ihh]
  | inList _ _ _ ihe ihs => simp [Expr.normal, same, ihe, sameAll_normals ihs]
  | caseWhen _ _ _ _ _ iho ihc ihv ihe =>
    simp [Expr.normal, same, sameOpt_normal? iho, sameBranches_normal ihc ihv, sameOpt_normal? ihe]
  | array _ ih | row _ ih => simp [Expr.normal, same, sameAll_normals ih]
  | field _ _ hx ih => simp [Expr.normal, same, ih, hx.same]
  | lambda _ _ hps _ ih =>
    rw [Expr.normal, Ident.delimit_map hps]
    simp [same, ih, sameList_refl]
  | call hname _ ih =>
    simp [Expr.normal, same, Call.normal, Call.same, Call.plain, sameAll_normals ih, Name.same,
      sameList_refl, OrderTerm.normals, OrderTerm.sameAll, normal?, sameOpt, Over.normal?,
      Over.sameOpt]

/-- Quotes do not change where the tree is nested. -/
theorem depth_normal (h : e.IsOperatorTree Called Member) : e.normal.depth = e.depth := by
  induction h with
  | literal hv => rw [Expr.normal, hv.normal]
  | column => rfl
  | @binary l r op _ _ hop ihl ihr =>
    rw [normal_binary hop, depth, depth, l.alike_normal.needsParens, r.alike_normal.needsParens,
      ihl, ihr]
  | @unary op e _ ih =>
    cases op <;>
      simp [Expr.normal, depth, ih, e.alike_normal.isLooser, e.alike_normal.sign]
  | @isNull e _ _ ih => simp [Expr.normal, depth, ih, e.alike_normal.isLooser]
  | @isDistinct l r _ _ _ ihl ihr =>
    simp [Expr.normal, depth, ihl, ihr, l.alike_normal.isLooser, r.alike_normal.isLooser]
  | @like e p _ _ _ _ _ ihe ihp ihc =>
    simp [Expr.normal, depth, ihe, ihp, escapeDepth_normal? ihc, e.alike_normal.isLooser,
      p.alike_normal.isLooser]
  | @between e low high _ _ _ _ ihe ihl ihh =>
    simp [Expr.normal, depth, ihe, ihl, ihh, e.alike_normal.isLooser, low.alike_normal.isLooser,
      high.alike_normal.isLooser]
  | @inList e _ _ _ _ _ ihe ihs =>
    simp [Expr.normal, depth, ihe, depthAll_normals ihs, e.alike_normal.isLooser]
  | caseWhen _ _ _ _ _ iho ihc ihv ihe =>
    simp [Expr.normal, depth, depth?_normal? iho, branchDepth_normal ihc ihv, depth?_normal? ihe]
  | array _ ih | row _ ih => simp [Expr.normal, depth, depthAll_normals ih]
  | @subscript base _ _ _ ihb ihi =>
    simp [Expr.normal, depth, ihb, ihi, base.alike_normal.isLooser]
  | @field base _ _ _ _ ih =>
    simp [Expr.normal, depth, ih, base.alike_normal.column, base.alike_normal.isLooser]
  | lambda _ _ _ _ ih => simp [Expr.normal, depth, ih]
  | call _ _ ih =>
    simp [Expr.normal, depth, Call.normal, Call.depth, Call.plain, depthAll_normals ih,
      OrderTerm.normals, normal?, Over.normal?]

end IsOperatorTree

/-- A tree whose names are quoted is its own normal form. -/
theorem IsQuotedTree.normal_eq {e : Expr} (h : e.IsQuotedTree) : e.normal = e := by
  induction h with
  | literal hv => rw [Expr.normal, hv.normal]
  | column hn => rw [Expr.normal, hn.delimit]
  | binary _ _ hop ihl ihr => rw [normal_binary hop, ihl, ihr]
  | unary _ ih | isNull _ ih => rw [Expr.normal, ih]
  | isDistinct _ _ ihl ihr | subscript _ _ ihl ihr => rw [Expr.normal, ihl, ihr]
  | like _ _ _ ihe ihp ihc => rw [Expr.normal, ihe, ihp, normal?_self ihc]
  | between _ _ _ ihe ihl ihh => rw [Expr.normal, ihe, ihl, ihh]
  | inList _ _ _ ihe ihs => rw [Expr.normal, ihe, normals_self ihs]
  | caseWhen _ _ _ _ _ iho ihc ihv ihe =>
    rw [Expr.normal, normal?_self iho, normalBranches_self ihc ihv, normal?_self ihe]
  | array _ ih | row _ ih => rw [Expr.normal, normals_self ih]
  | field _ _ hx ih => rw [Expr.normal, ih, hx.delimit]
  | lambda _ _ hps _ ih => rw [Expr.normal, ih, Ident.delimit_map hps]
  | call _ _ ih =>
    rw [Expr.normal, Call.plain, Call.normal, normals_self ih]
    rfl

end Expr

/-- Printing a tree of operators in any layout and parsing the text gives its normal form, unless
the text is nested too deeply. That is the same tree up to the spelling of fields, and the very same
one if all names are quoted. -/
theorem Expr.parse_print_operatorTree {e : Expr}
    (h : e.IsOperatorTree Ident.IsQuoted Ident.IsQuotable) (o : Layout) :
    (e.normal.same e = true ∧ (e.IsQuotedTree → e.normal = e)) ∧
      ReadsBack (Expr.parse (e.print o)) e.normal ∧
      (e.depth ≤ Grammar.maxDepth → Expr.parse (e.print o) = .ok e.normal) := by
  have hprint := e.print_normal o
  have hread := readsBack_of_fixed h.normal.fixed o
  have hparse := (parse_print (ready_of_fixed h.normal.fixed) (o := o)).1
  rw [hprint] at hread hparse
  rw [h.depth_normal] at hparse
  exact ⟨⟨h.same_normal, fun hquoted => hquoted.normal_eq⟩, hread, hparse⟩

theorem Name.isQuoted_single {text : String} (h : text ≠ "") :
    (Name.single (.quoted text)).IsQuoted := by
  intro x hx
  obtain rfl : x = .quoted text := by simpa [Name.parts, Name.single] using hx
  exact ⟨rfl, h⟩

namespace Expr

def sampleDifference : Expr :=
  .binary (.column (.single (.quoted "a"))) .sub
    (.binary (.column (.single (.quoted "b"))) .sub (.integer 2))

def sampleElement : Expr :=
  .subscript (.column (.single (.quoted "c\""))) (.unary .minus (.unary .minus (.integer 1)))

/-- Differences on the right, a double sign, texts with marks in them, and a field without
quotes. -/
def operatorSample : Expr :=
  .binary (.unary .not (.isNull sampleDifference true)) .and
    (.binary (.field sampleElement (.plain "f")) .eq (.string "it's -- /*"))

theorem parse_print_operatorSample :
    operatorSample.IsOperatorTree Ident.IsQuoted Ident.IsQuotable ∧
      operatorSample.depth ≤ Grammar.maxDepth ∧
      ∀ o, (operatorSample.normal.same operatorSample = true ∧
          (operatorSample.IsQuotedTree → operatorSample.normal = operatorSample)) ∧
        ReadsBack (Expr.parse (operatorSample.print o)) operatorSample.normal ∧
        (operatorSample.depth ≤ Grammar.maxDepth →
          Expr.parse (operatorSample.print o) = .ok operatorSample.normal) := by
  have column : ∀ text, text ≠ "" →
      (Expr.column (.single (.quoted text))).IsOperatorTree Ident.IsQuoted Ident.IsQuotable :=
    fun text h => .column (Name.isQuoted_single h)
  have integer : ∀ n : Int64, 0 ≤ n →
      (Expr.integer n).IsOperatorTree Ident.IsQuoted Ident.IsQuotable := fun n h => .literal h
  have difference : sampleDifference.IsOperatorTree Ident.IsQuoted Ident.IsQuotable :=
    .binary (column "a" (by decide))
      (.binary (column "b" (by decide)) (integer 2 (by decide)) (by decide)) (by decide)
  have element : sampleElement.IsOperatorTree Ident.IsQuoted Ident.IsQuotable :=
    .subscript (column "c\"" (by decide)) (.unary (.unary (integer 1 (by decide))))
  have h : operatorSample.IsOperatorTree Ident.IsQuoted Ident.IsQuotable :=
    .binary (.unary (.isNull difference))
      (.binary (.field element (by rintro _ ⟨⟩) ⟨.inr (by decide +kernel), by decide⟩)
        (.literal trivial) (by decide)) (by decide)
  exact ⟨h, by decide, fun o => parse_print_operatorTree h o⟩

/-- A field of the column `"a"`. -/
def sampleField (x : Ident) : Expr := .field (.column (.single (.quoted "a"))) x

/-- An empty name of a field, of a function and of a parameter. -/
def namelessTrees : List Expr :=
  [sampleField (.quoted ""), .call (.plain (.single (.quoted "")) []),
    .lambda [.quoted ""] (.integer 1)]

/-- Not every name is read as itself: one with capitals has to be quoted, and an empty one is not
read at all. -/
theorem parse_print_unquotable :
    ((sampleField (.plain "F")).IsOperatorTree (·.delimited = true) (fun _ => True) ∧
      (sampleField (.plain "F")).print {} = "(\"a\").\"F\"" ∧
      ∃ e, Expr.parse "(\"a\").\"F\"" = .ok e ∧ e.same (sampleField (.plain "F")) = false) ∧
    ∀ e ∈ namelessTrees, e.IsOperatorTree (·.delimited = true) (fun _ => True) ∧
      ∃ expected span, Expr.parse (e.print {}) =
        .error ⟨.unexpected expected (.error .emptyName), span⟩ := by
  have hcolumn : (Name.single (.quoted "a")).IsQuoted := Name.isQuoted_single (by decide)
  have hbase : ∀ n, Expr.column (.single (.quoted "a")) ≠ .literal (.integer n) := by rintro _ ⟨⟩
  have htree : (sampleField (.quoted "F")).IsQuotedTree :=
    .field (.column hcolumn) hbase ⟨rfl, by decide⟩
  have hread : Expr.parse ((sampleField (.quoted "F")).print {}) =
      .ok (sampleField (.quoted "F")) :=
    (parse_print (ready_of_fixed htree.fixed)).1 (by decide)
  have hprint : (sampleField (.quoted "F")).print {} = "(\"a\").\"F\"" := by decide +kernel
  have hempty : ∀ x ∈ (Name.single (.quoted "")).parts, x.delimited = true := by decide
  have hone : (0 : Int64) ≤ 1 := by decide
  refine ⟨⟨.field (.column hcolumn) hbase trivial, hprint, _, hprint ▸ hread,
    by decide +kernel⟩, ?_⟩
  simp only [namelessTrees, List.forall_mem_cons]
  refine ⟨⟨.field (.column hcolumn) hbase trivial, "identifier", ⟨6, 8⟩, ?_⟩,
    ⟨.call hempty (List.forall_mem_nil _), "expression", ⟨0, 2⟩, ?_⟩,
    ⟨.lambda (List.cons_ne_nil _ _) rfl (by decide) (.literal hone), "expression", ⟨0, 2⟩, ?_⟩,
    List.forall_mem_nil _⟩
  · exact Parser.run_error_of_map (by decide +kernel)
  · exact Parser.run_error_of_map (by decide +kernel)
  · exact Parser.run_error_of_map (by decide +kernel)

end Expr

end Sql
