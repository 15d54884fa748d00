import Sql.Proofs.Printing
import Sql.Proofs.Queries

/-! Parsing printed trees: what is printed is read back, unless it is nested too deeply. -/
namespace Sql

open Token (Kind)

/-- A text is refused because it is nested too deeply, whatever else may be said about it. -/
def TooDeep {α : Type} (result : Except ParseError α) : Prop :=
  ∃ e, result = .error e ∧ e.cause = .tooDeep

/-- The text stands for the tree, unless it is nested too deeply. -/
def ReadsBack {α : Type} (result : Except ParseError α) (a : α) : Prop :=
  result = .ok a ∨ TooDeep result

theorem Ready.printable {m : Nat} {ns : List Node} (h : Ready m ns) : Printable ns :=
  fun n hn => ⟨(h.good n hn).sound, (h.good n hn).steady⟩

namespace Parser

variable {α : Type} {p : Parser α} {c : Cursor} {a : α} {m : Nat} {text : String} {F P : Prop}

theorem finish_apply (hc : c.At [] m) : finish c = .ok ((), c) := by
  unfold finish
  rw [eatSymbol, bind_ok (eat_of_ne hc (by simp)), bind_ok (check_apply hc _)]
  rfl

theorem ofText_at {ts : List Kind} (h : Prints text ts) : (Cursor.ofText text).At ts 0 :=
  ⟨h.scan, rfl⟩

/-- A parser that reads all tokens of a text gives what it reads. -/
theorem Gives.run (h : Gives F P p (.ofText text) a [] m) :
    (F → p.run text = .ok a) ∧ (P → ¬ F → TooDeep (p.run text)) := by
  constructor
  · intro hf
    obtain ⟨c', hc, hr⟩ := h.1 hf
    have hrun : (do let a ← p; finish; return a : Parser α) (.ofText text) = .ok (a, c') := by
      rw [bind_ok hc, bind_ok (finish_apply hr)]
      rfl
    change ((do let a ← p; finish; return a : Parser α) (.ofText text)).map Prod.fst = _
    rw [hrun]
    rfl
  · intro hp hf
    obtain ⟨e, he, hd⟩ := h.2 hp hf
    refine ⟨e, ?_, hd⟩
    change ((do let a ← p; finish; return a : Parser α) (.ofText text)).map Prod.fst = _
    rw [bind_error he]
    rfl

end Parser

section

variable {o : Layout}

/-- An expression is read back from its text if the text is not nested too deeply. -/
theorem Expr.parse_print {e : Expr} (h : Ready 0 e.nodes) :
    (e.depth ≤ Grammar.maxDepth → Expr.parse (e.print o) = .ok e) ∧
      (Plain e.nodes → ¬ e.depth ≤ Grammar.maxDepth → TooDeep (Expr.parse (e.print o))) := by
  have hprints := e.prints_tokens o h.printable
  rw [← List.append_nil e.tokens] at hprints
  exact ((Grammar.Reads.ofDepth Grammar.maxDepth).expr h (Parser.ofText_at hprints) rfl).run

/-- A query is read back from its text if the text is not nested too deeply. -/
theorem Query.parse_print {q : Query} (h : Ready 0 q.nodes) :
    (q.depth ≤ Grammar.maxDepth → Query.parse (q.print o) = .ok q) ∧
      (Plain q.nodes → ¬ q.depth ≤ Grammar.maxDepth → TooDeep (Query.parse (q.print o))) := by
  have hprints := q.prints_tokens o h.printable
  rw [← List.append_nil q.tokens] at hprints
  exact ((Grammar.Reads.ofDepth Grammar.maxDepth).query q _ 0 [] h (Parser.ofText_at hprints)
    rfl).run

end

/-! ### Trees without placeholders and subqueries -/

/-- A part that is read back wherever it stands, without trying alternatives. -/
structure Node.Fixed (n : Node) : Prop where
  good : n.Good
  plain : n.plain = true
  unmarked : n.isMark = false

theorem numbered_of_unmarked {m : Nat} {ns : List Node} (h : ∀ n ∈ ns, n.isMark = false) :
    Numbered m ns := by
  induction ns with
  | nil => trivial
  | cons n ns ih =>
    rw [numbered_cons (h n (by simp))]
    exact ih fun k hk => h k (by simp [hk])

theorem ready_of_fixed {m : Nat} {ns : List Node} (h : ∀ n ∈ ns, n.Fixed) : Ready m ns :=
  ⟨fun n hn => (h n hn).good, numbered_of_unmarked fun n hn => (h n hn).unmarked⟩

theorem plain_of_fixed {ns : List Node} (h : ∀ n ∈ ns, n.Fixed) : Plain ns :=
  fun n hn => (h n hn).plain

theorem Expr.readsBack_of_fixed {e : Expr} (h : ∀ n ∈ e.nodes, n.Fixed) (o : Layout) :
    ReadsBack (Expr.parse (e.print o)) e := by
  obtain ⟨hok, hdeep⟩ := Expr.parse_print (o := o) (ready_of_fixed h)
  by_cases hd : e.depth ≤ Grammar.maxDepth
  · exact .inl (hok hd)
  · exact .inr (hdeep (plain_of_fixed h) hd)

theorem Query.readsBack_of_fixed {q : Query} (h : ∀ n ∈ q.nodes, n.Fixed) (o : Layout) :
    ReadsBack (Query.parse (q.print o)) q := by
  obtain ⟨hok, hdeep⟩ := Query.parse_print (o := o) (ready_of_fixed h)
  by_cases hd : q.depth ≤ Grammar.maxDepth
  · exact .inl (hok hd)
  · exact .inr (hdeep (plain_of_fixed h) hd)

end Sql
