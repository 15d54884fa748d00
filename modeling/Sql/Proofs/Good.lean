import Sql.Proofs.Nodes
import Sql.Proofs.Tokens
import Sql.Token.Scan
import Sql.Tree.Valid

/-! Which trees are read back from their printed text. -/
namespace Sql

open Token (Kind)

/-- A bare word that is not reserved. -/
def Token.IsWord (text : String) : Prop :=
  (∃ c cs, text.toList = c :: cs ∧ startsWord c = true ∧ ∀ d ∈ cs, continuesWord d = true) ∧
    Keyword.ofWord? text = none

def Token.AllDigits (ds : List Char) : Prop := ds ≠ [] ∧ ∀ d ∈ ds, d.isDigit = true

/-- Digits around a point, or digits of a number that is too large for an integer. -/
def Token.IsDecimal (text : String) : Prop :=
  (∃ ds fs, AllDigits ds ∧ (∀ d ∈ fs, d.isDigit = true) ∧ text.toList = ds ++ '.' :: fs) ∨
    (∃ ds, AllDigits ds ∧ text.toList = '.' :: ds) ∨
    (AllDigits text.toList ∧ maxInteger < Text.digitsValue text.toList)

namespace Ident

/-- Names between quotes are not empty. -/
def Named (x : Ident) : Prop := x.text ≠ ""

/-- A part of the name of a function. -/
def Spelled (x : Ident) : Prop := if x.delimited then x.Named else Token.IsWord x.text

end Ident

def Name.Named (n : Name) : Prop := ∀ x ∈ n.parts, x.Named

def Name.Delimited (n : Name) : Prop := ∀ x ∈ n.parts, x.delimited = true

/-- Undelimited words that start a construct of their own before a parenthesis. -/
def Ident.opensConstruct (x : Ident) : Bool :=
  !x.delimited && (x.text.toUpper == "ROW" || x.text.toUpper == "TRY_CAST")

def Scalar.InRange : Scalar → Prop
  | .decimal p s => 1 ≤ p ∧ p ≤ DataType.maxPrecision ∧ s ≤ p
  | .varchar (some n) | .char n => 1 ≤ n ∧ n ≤ DataType.maxLength
  | .time p _ | .timestamp p _ => p ≤ DataType.maxTimePrecision
  | _ => True

mutual

/-- The parameters of the type can be written, and so can its field names. -/
def DataType.InRange : DataType → Prop
  | .unknown => True
  | .scalar t => t.InRange
  | .array t => t.InRange
  | .map k v => k.InRange ∧ v.InRange
  | .row fields => fields ≠ [] ∧ RowField.AllInRange fields
termination_by structural t => t

def RowField.InRange : RowField → Prop
  | ⟨name, t⟩ => name ≠ some "" ∧ t.InRange
termination_by structural f => f

def RowField.AllInRange : List RowField → Prop
  | [] => True
  | f :: fs => f.InRange ∧ RowField.AllInRange fs
termination_by structural fs => fs

end

mutual

def DataType.hasRow : DataType → Bool
  | .unknown | .scalar _ => false
  | .array t => t.hasRow
  | .map k v => k.hasRow || v.hasRow
  | .row _ => true
termination_by structural t => t

end

/-! ### Trees that the grammar can build -/

def Literal.Sound : Literal → Prop
  | .integer n => 0 ≤ n
  | .decimal text => Token.IsDecimal text
  | .double d => d.negative = false ∧ d.isNaN = false ∧
      (d.isInfinite = false → Double.ofText? d.text = some d)
  | _ => True

def Expr.Sound : Expr → Prop
  | .literal v => v.Sound
  | .column n => n.Named
  | .star r => ∀ n ∈ r, n.Named
  | .inList _ items _ => items ≠ [] ∧ ∀ q, items ≠ [.subquery q]
  | .cast _ t _ => t.InRange
  | .caseWhen _ branches _ => branches ≠ []
  | .field _ x => x.Named
  | .lambda params _ => params ≠ [] ∧ ∀ x ∈ params, x.Named
  | .interval _ _ start stop => ∀ finer ∈ stop, start.admits finer = true
  | .typed type _ => Token.IsWord type ∧ type.toUpper = type ∧ type ≠ "INTERVAL"
  | _ => True

structure Call.Sound (c : Call) : Prop where
  spelled : ∀ x ∈ c.name.parts, x.Spelled
  plain : c.name.qualifier = [] → c.name.base.opensConstruct = false
  noArgs : c.args = [] → c.quantifier = none ∧ c.order = []

def Over.Sound : Over → Prop
  | .named x => x.Named
  | .window _ => True

def Relation.Sound : Relation → Prop
  | .table n s => n.Named ∧ s = none
  | .renamed _ x cs => x.Named ∧ ∀ y ∈ cs, y.Named
  | .join _ _ kind criteria => criteria.flaw? kind = none
  | .query q => q.isModified = true ∨ (∃ s, q.body = .select s) ∨ ∃ n, q.body = .table n
  | .values rows => rows ≠ []
  | .unnest args _ => args ≠ []
  | _ => True

def Criteria.Sound : Criteria → Prop
  | .columns xs => ∀ x ∈ xs, x.Named
  | _ => True

structure Query.Sound (q : Query) : Prop where
  nested : ∀ inner, q.body = .nested inner → inner.isModified = true ∧ q.isModified = true
  offset : ∀ n ∈ q.offset, n ≤ Token.maxInteger
  limit : ∀ n, q.limit = some (.count n) → n ≤ Token.maxInteger

def Cte.Sound (c : Cte) : Prop := c.name.Named ∧ ∀ x ∈ c.columns, x.Named

def Body.Sound : Body → Prop
  | .table n => n.Named
  | .values rows => rows ≠ []
  | _ => True

def SelectItem.Sound : SelectItem → Prop
  | .expr _ x => ∀ y ∈ x, y.Named
  | .star r xs => (∀ n ∈ r, n.Named) ∧ ∀ x ∈ xs, x.Named

def GroupingElement.Sound : GroupingElement → Prop
  | .expr _ => True
  | .rollup es | .cube es => es ≠ []
  | .sets lists => lists ≠ []

def Node.Sound : Node → Prop
  | .expr e => e.Sound
  | .call c => c.Sound
  | .over o => o.Sound
  | .window w => ∀ x ∈ w.base, x.Named
  | .bound _ => True
  | .relation r => r.Sound
  | .criteria c => c.Sound
  | .query q => q.Sound
  | .bindings w => w.entries ≠ []
  | .cte c => c.Sound
  | .body b => b.Sound
  | .select s => s.items ≠ []
  | .item i => i.Sound
  | .group g => g.elements ≠ []
  | .grouping e => e.Sound
  | .namedWindow w => w.name.Named

/-! ### Trees that are read back as they are -/

def Expr.Settled : Expr → Prop
  | .literal (.double d) => d.isInfinite = false
  | .column n => n.Delimited
  | .star r => ∀ n ∈ r, n.Delimited
  | .binary _ op r => (r.isBinaryOf op && op.isAssociative) = false
  | .field _ x => x.delimited = true
  | .lambda params _ => ∀ x ∈ params, x.delimited = true
  | _ => True

def Relation.Settled : Relation → Prop
  | .table n _ => n.Delimited
  | .renamed _ x cs => x.delimited = true ∧ ∀ y ∈ cs, y.delimited = true
  | _ => True

def SelectItem.Settled : SelectItem → Prop
  | .expr e x => (∀ r, e = .star r → x ≠ none) ∧ ∀ y ∈ x, y.delimited = true
  | .star r xs => (∀ n ∈ r, n.Delimited) ∧ ∀ x ∈ xs, x.delimited = true

def Node.Settled : Node → Prop
  | .expr e => e.Settled
  | .over (.named x) => x.delimited = true
  | .window w => ∀ x ∈ w.base, x.delimited = true
  | .relation r => r.Settled
  | .criteria (.columns xs) => ∀ x ∈ xs, x.delimited = true
  | .cte c => c.name.delimited = true ∧ ∀ x ∈ c.columns, x.delimited = true
  | .body (.table n) => n.Delimited
  | .item i => i.Settled
  | .namedWindow w => w.name.delimited = true
  | _ => True

/-! ### Trees whose parts keep their meaning next to each other -/

namespace Token.Kind

/-- Do the tokens start with a name before a point and a star? -/
def namesStar : List Kind → Bool
  | .ident _ :: .symbol .dot :: .symbol .star :: _ => true
  | .ident _ :: .symbol .dot :: ts => namesStar ts
  | _ => false

/-- Would the tokens be read as an item that selects all columns? -/
def startsStar (ts : List Kind) : Bool := Kind.next ts == .symbol .star || namesStar ts

/-- Would the tokens be read as a grouping element that holds a list? -/
def startsGrouping (ts : List Kind) : Bool :=
  ((Kind.next ts).isWord "ROLLUP" || (Kind.next ts).isWord "CUBE") &&
    ts.getD 1 .endOfInput == .symbol .leftParen

def startsUnbounded (ts : List Kind) : Bool := (Kind.next ts).isWord "UNBOUNDED"

end Token.Kind

open Token.Kind

/-- May a point and a name follow? A number without digits behind its point would take the point,
and a call without parentheses would become the first part of a name. -/
def Expr.takesField : Expr → Bool
  | .literal (.integer _) => false
  | .literal (.decimal text) => text.toList.dropLast.contains '.'
  | .call c => !c.isBare
  | _ => true

def Expr.steady : Expr → Bool
  | .field base _ => base.takesField
  | .lambda params _ => decide (params.map Ident.text).Nodup
  | _ => true

def Bound.steady : Bound → Bool
  | .preceding e | .following e => e.isLooser .concat || !startsUnbounded e.tokens
  | _ => true

def SelectItem.steady : SelectItem → Bool
  | .expr e x => (e matches .star _ && x.isNone) || !startsStar e.tokens
  | .star .. => true

def GroupingElement.steady : GroupingElement → Bool
  | .expr e => !startsGrouping e.tokens
  | _ => true

/-- Is the printed part read in its place as what it is? -/
def Node.steady : Node → Bool
  | .expr e => e.steady
  | .bound b => b.steady
  | .item i => i.steady
  | .grouping e => e.steady
  | _ => true

/-! ### Trees that are read without trying alternatives -/

def Node.plain : Node → Bool
  | .expr (.inQuery ..) | .expr (.subquery _) => false
  | .expr (.cast _ t _) => !t.hasRow
  | .relation (.setOperation _) | .relation (.query _) | .relation (.values _) => false
  | .grouping (.sets _) => false
  | _ => true

/-! ### Lists of parts -/

structure Node.Good (n : Node) : Prop where
  sound : n.Sound
  settled : n.Settled
  steady : n.steady = true

def Node.isMark : Node → Bool
  | .expr (.parameter _) => true
  | _ => false

/-- How many placeholders there are. -/
def marks (ns : List Node) : Nat := ns.countP Node.isMark

/-- The placeholders are numbered in order, after the given number. -/
def Numbered : Nat → List Node → Prop
  | _, [] => True
  | m, .expr (.parameter i) :: ns => i = m + 1 ∧ Numbered (m + 1) ns
  | m, _ :: ns => Numbered m ns

def Plain (ns : List Node) : Prop := ∀ n ∈ ns, n.plain = true

/-- Parts that are read back from their printed text, after so many placeholders. -/
structure Ready (m : Nat) (ns : List Node) : Prop where
  good : ∀ n ∈ ns, n.Good
  numbered : Numbered m ns

section

variable {m : Nat} {n : Node} {ns ms : List Node}

@[simp] theorem marks_nil : marks [] = 0 := rfl

@[simp] theorem marks_cons : marks (n :: ns) = marks ns + if n.isMark then 1 else 0 :=
  List.countP_cons

@[simp] theorem marks_append : marks (ns ++ ms) = marks ns + marks ms := List.countP_append

theorem numbered_cons (h : n.isMark = false) : Numbered m (n :: ns) ↔ Numbered m ns := by
  rw [Numbered]
  intro i hi
  simp [hi, Node.isMark] at h

theorem numbered_append : Numbered m (ns ++ ms) ↔ Numbered m ns ∧ Numbered (m + marks ns) ms := by
  induction ns generalizing m with
  | nil => simp [Numbered]
  | cons n ns ih =>
    cases h : n.isMark
    · simp [numbered_cons h, h, ih]
    · obtain ⟨i, rfl⟩ : ∃ i, n = .expr (.parameter i) := by
        unfold Node.isMark at h
        split at h <;> simp_all
      have hm : m + 1 + marks ns = m + (marks ns + 1) := by omega
      simp [Numbered, Node.isMark, ih, and_assoc, hm]

@[simp] theorem plain_nil : Plain [] ↔ True := by simp [Plain]

@[simp] theorem plain_cons : Plain (n :: ns) ↔ n.plain = true ∧ Plain ns := by simp [Plain]

@[simp] theorem plain_append : Plain (ns ++ ms) ↔ Plain ns ∧ Plain ms := by
  simp [Plain, or_imp, forall_and]

theorem plain_of_mem {α : Type} {xs : List α} {x : α} {f : α → List Node}
    (h : Plain (xs.flatMap f)) (hx : x ∈ xs) : Plain (f x) :=
  fun k hk => h k (List.mem_flatMap.2 ⟨x, hx, hk⟩)

theorem ready_nil : Ready m [] := ⟨by simp, trivial⟩

theorem ready_cons (h : n.isMark = false) : Ready m (n :: ns) ↔ n.Good ∧ Ready m ns := by
  constructor
  · intro hr
    have hg := List.forall_mem_cons.1 hr.good
    exact ⟨hg.1, hg.2, (numbered_cons h).1 hr.numbered⟩
  · intro hr
    exact ⟨List.forall_mem_cons.2 ⟨hr.1, hr.2.good⟩, (numbered_cons h).2 hr.2.numbered⟩

theorem ready_append : Ready m (ns ++ ms) ↔ Ready m ns ∧ Ready (m + marks ns) ms := by
  constructor
  · intro hr
    have hg := List.forall_mem_append.1 hr.good
    have hn := numbered_append.1 hr.numbered
    exact ⟨⟨hg.1, hn.1⟩, hg.2, hn.2⟩
  · intro hr
    exact ⟨List.forall_mem_append.2 ⟨hr.1.good, hr.2.good⟩,
      numbered_append.2 ⟨hr.1.numbered, hr.2.numbered⟩⟩

end

end Sql
