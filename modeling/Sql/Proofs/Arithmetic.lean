import Sql.Proofs.Composed

/-! The values of arithmetic expressions. The parentheses that printing drops matter in one place
only: around a product that is the right operand of another one and starts with a quotient or a
remainder. -/
namespace Sql

/-- The operator applied to whole numbers. Quotients are truncated, and nothing divides by zero. -/
def BinaryOp.compute? : BinaryOp → Int → Int → Option Int
  | .add, a, b => some (a + b)
  | .sub, a, b => some (a - b)
  | .mul, a, b => some (a * b)
  | .div, a, b => if b = 0 then none else some (a.tdiv b)
  | .mod, a, b => if b = 0 then none else some (a.tmod b)
  | _, _, _ => none

theorem Ident.delimit_of_delimited {x : Ident} (h : x.delimited = true) : x.delimit = x := by
  obtain ⟨text, delimited⟩ := x
  obtain rfl : delimited = true := h
  rfl

theorem Name.delimit_of_delimited {n : Name} (h : n.Delimited) : n.delimit = n := by
  obtain ⟨qualifier, base⟩ := n
  obtain ⟨hqualifier, hbase⟩ := List.forall_mem_append.1 h
  have hsame : qualifier.map Ident.delimit = qualifier.map id :=
    List.map_congr_left fun x hx => Ident.delimit_of_delimited (hqualifier x hx)
  rw [delimit, hsame, List.map_id, Ident.delimit_of_delimited (hbase base List.mem_cons_self)]

namespace Expr

/-- The value of an arithmetic expression, unless it divides by zero. -/
def value? (columns : Name → Int) : Expr → Option Int
  | .literal (.integer n) => some n.toInt
  | .column n => some (columns n)
  | .unary .minus e => (value? columns e).map Int.neg
  | .binary l op r => (value? columns l).bind fun a => (value? columns r).bind (op.compute? a)
  | _ => none
termination_by structural e => e

/-- Are all operators in the row of factors multiplications, from the first one on? -/
def multiplies : Expr → Bool
  | .binary l op _ => op.tier != .multiplicative || op == .mul && l.multiplies
  | _ => true
termination_by structural e => e

/-- No factor on the right is a product with a quotient or a remainder at its start. -/
def factored : Expr → Bool
  | .unary _ e => e.factored
  | .binary l op r =>
    l.factored && r.factored && (op != .mul || !r.isBinaryOf .mul || r.multiplies)
  | _ => true
termination_by structural e => e

/-- Integers and columns under a minus sign and the operators of arithmetic. -/
inductive IsArithmetic : Expr → Prop
  | integer {n : Int64} : 0 ≤ n → IsArithmetic (.literal (.integer n))
  | column {n : Name} : n.Named → n.Delimited → IsArithmetic (.column n)
  | minus {e : Expr} : IsArithmetic e → IsArithmetic (.unary .minus e)
  | binary {l r : Expr} {op : BinaryOp} : op.tier = .additive ∨ op.tier = .multiplicative →
      IsArithmetic l → IsArithmetic r → IsArithmetic (.binary l op r)

variable {op : BinaryOp} {l r e : Expr} {columns : Name → Int}

theorem IsArithmetic.isComposed (h : e.IsArithmetic) : e.IsComposed := by
  induction h with
  | integer => exact .literal trivial
  | column hn => exact .column hn
  | minus _ ih => exact .unary ih
  | binary _ _ _ ihl ihr => exact .binary ihl ihr

/-! ### Operators in a row -/

/-- Sums go on in any way, products only behind factors. -/
def GoesOn (op : BinaryOp) (e : Expr) : Prop := op = .add ∨ op = .mul ∧ e.multiplies = true

theorem value?_binary_congr {l' r' : Expr} (hl : l'.value? columns = l.value? columns)
    (hr : r'.value? columns = r.value? columns) :
    (binary l' op r').value? columns = (binary l op r).value? columns := by
  rw [value?, value?, hl, hr]

theorem multiplies_binary {l r : Expr} (h : op.tier = .multiplicative) :
    (binary l op r).multiplies = true ↔ op = .mul ∧ l.multiplies = true := by
  simp [multiplies, h]

theorem value?_prepend (h : GoesOn op e) (l : Expr) :
    (prepend l op e).value? columns = (binary l op e).value? columns := by
  induction e using prepend.induct op with
  | case1 x op' y htier ih =>
    rw [prepend, if_pos htier]
    have hx : GoesOn op x := by
      refine h.imp_right ?_
      rintro ⟨rfl, hmultiplies⟩
      exact ⟨rfl, ((multiplies_binary htier).1 hmultiplies).2⟩
    have hassoc : ∀ a b c, (op.compute? a b).bind (fun d => op'.compute? d c) =
        (op'.compute? b c).bind (op.compute? a) := by
      intro a b c
      rcases h with rfl | ⟨rfl, hmultiplies⟩
      · cases op' with
        | add => simp [BinaryOp.compute?, Int.add_assoc]
        | sub => simp [BinaryOp.compute?, Int.add_sub_assoc]
        | _ => cases htier
      · obtain rfl := ((multiplies_binary htier).1 hmultiplies).1
        simp [BinaryOp.compute?, Int.mul_assoc]
    rw [value?, ih hx, value?, value?, value?]
    cases l.value? columns with
    | none => rfl
    | some a =>
      cases x.value? columns with
      | none => rfl
      | some b =>
        cases y.value? columns with
        | none => simp
        | some c => exact hassoc a b c
  | case2 x op' y htier => rw [prepend, if_neg htier]
  | case3 e hne =>
    rw [prepend]
    exact hne

theorem multiplies_prepend (hl : l.multiplies = true) (he : e.multiplies = true) :
    (prepend l .mul e).multiplies = true := by
  induction e using prepend.induct BinaryOp.mul with
  | case1 x op' y htier ih =>
    rw [prepend, if_pos htier]
    obtain ⟨hop, hx⟩ := (multiplies_binary htier).1 he
    exact (multiplies_binary htier).2 ⟨hop, ih hx⟩
  | case2 x op' y htier =>
    rw [prepend, if_neg htier]
    exact (multiplies_binary rfl).2 ⟨rfl, hl⟩
  | case3 e hne =>
    rw [prepend]
    · exact (multiplies_binary rfl).2 ⟨rfl, hl⟩
    · exact hne

/-! ### The normal form -/

theorem factored_operands (h : (binary l op r).factored = true) :
    l.factored = true ∧ r.factored = true :=
  (Bool.and_eq_true _ _).mp ((Bool.and_eq_true _ _).mp h).1

theorem multiplies_of_factored (h : (binary l .mul r).factored = true)
    (hr : r.isBinaryOf .mul = true) : r.multiplies = true := by
  simpa [factored, hr] using ((Bool.and_eq_true _ _).mp h).2

namespace IsArithmetic

theorem normal_integer {n : Int64} (h : 0 ≤ n) :
    (literal (.integer n)).normal = .literal (.integer n) := by
  rw [normal, Literal.normal, if_neg (Int64.not_lt.2 h)]

theorem multiplies_normal (h : e.IsArithmetic) (hfactored : e.factored = true)
    (hmultiplies : e.multiplies = true) : e.normal.multiplies = true := by
  induction h with
  | integer hn => rwa [normal_integer hn]
  | column | minus => rfl
  | @binary l r op hop _ _ ihl ihr =>
    obtain ⟨hl, hr⟩ := factored_operands hfactored
    rw [normal]
    rcases hop with htier | htier
    · obtain ⟨x, y, heq⟩ := regroup_eq op l.normal r.normal
      rw [heq, multiplies, htier]
      rfl
    · obtain ⟨rfl, hleft⟩ := (multiplies_binary htier).1 hmultiplies
      have hleft := ihl hl hleft
      rw [regroup]
      split
      · rename_i hright
        rw [r.alike_normal.operator, Bool.and_eq_true] at hright
        have hright := ihr hr (multiplies_of_factored hfactored hright.1)
        exact multiplies_prepend hleft hright
      · exact (multiplies_binary rfl).2 ⟨rfl, hleft⟩

/-- Grouping the operators from the left keeps the value. -/
theorem value?_normal (h : e.IsArithmetic) (hfactored : e.factored = true) :
    e.normal.value? columns = e.value? columns := by
  induction h with
  | integer hn => rw [normal_integer hn]
  | @column n _ hn => rw [normal, Name.delimit_of_delimited hn]
  | minus _ ih => rw [normal, value?, value?, ih hfactored]
  | @binary l r op hop _ hr' ihl ihr =>
    obtain ⟨hl, hr⟩ := factored_operands hfactored
    have hoperands : (Expr.binary l.normal op r.normal).value? columns =
        (Expr.binary l op r).value? columns := value?_binary_congr (ihl hl) (ihr hr)
    rw [normal, regroup]
    split
    · rename_i hright
      obtain ⟨hright, hassoc⟩ := (Bool.and_eq_true _ _).mp hright
      rw [r.alike_normal.operator] at hright
      refine (value?_prepend ?_ _).trans hoperands
      cases op with
      | add => exact .inl rfl
      | mul =>
        have hmultiplies := multiplies_of_factored hfactored hright
        exact .inr ⟨rfl, hr'.multiplies_normal hr hmultiplies⟩
      | _ => simp [BinaryOp.isAssociative, BinaryOp.tier] at hassoc hop
    · exact hoperands

/-- What is read where a factored expression has been printed has the same value. -/
theorem value?_of_parse (h : e.IsArithmetic) (hfactored : e.factored = true) {o : Layout}
    {e' : Expr} (hparse : Expr.parse (e.print o) = .ok e') :
    e'.value? columns = e.value? columns := by
  have hread := readsBack_of_fixed h.isComposed.fixed o
  rw [print_normal, hparse] at hread
  obtain ⟨⟨⟩⟩ | ⟨_, ⟨⟩, -⟩ := hread
  exact h.value?_normal hfactored

end IsArithmetic

/-- Two times the product that starts with one half has the value zero, and one without its
parentheses. -/
example :
    let halves : Expr := .binary (.binary (.integer 1) .div (.integer 2)) .mul (.integer 1)
    let e : Expr := .binary (.integer 2) .mul halves
    e.value? (fun _ => 0) = some 0 ∧ e.normal.value? (fun _ => 0) = some 1 := by
  decide +kernel

end Expr

end Sql
