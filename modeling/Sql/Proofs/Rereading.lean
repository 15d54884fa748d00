import Sql.Proofs.NormalForms
import Sql.Proofs.RoundTrip
import Sql.Proofs.TallyQueries

/-! Texts that are accepted, printed and read again: what is read is the normal form of the tree,
and it is printed as the tree was. Two things can stand against it: a part that is read differently
in its place, such as an integer before a point, and a text that is nested too deeply. -/
namespace Sql

open Token (Kind)

/-- Placeholders that bear the numbers of their places are numbered in order. -/
theorem numbered_of_numbers {m k : Nat} {ns : List Node} (h : numbers ns = List.range' (m + 1) k) :
    Numbered m ns := by
  induction ns generalizing m k with
  | nil => trivial
  | cons n ns ih =>
    cases hmark : n.parameter? with
    | none =>
      have hunmarked : n.isMark = false := by
        unfold Node.isMark
        split
        · cases hmark
        · rfl
      rw [numbers_cons hmark] at h
      exact (numbered_cons hunmarked).2 (ih h)
    | some i =>
      obtain rfl : n = .expr (.parameter i) := by
        unfold Node.parameter? at hmark
        split at hmark
        · cases hmark
          rfl
        · cases hmark
      cases k with
      | zero => cases h
      | succ k =>
        rw [List.range'_succ] at h
        obtain ⟨rfl, hrest⟩ := List.cons.inj h
        exact ⟨rfl, ih hrest⟩

/-- Parts that come from the parts of a parsed tree by taking the normal form. -/
theorem ready_of_normalizes {ns ms : List Node} {k : Nat} (h : Normalizes ns ms)
    (hformed : ∀ n ∈ ns, n.Formed) (hnumbers : numbers ns = List.range' 1 k)
    (hsteady : ∀ n ∈ ms, n.steady = true) : Ready 0 ms := by
  refine ⟨fun n hn => ?_, numbered_of_numbers (h.numbers.trans hnumbers)⟩
  obtain ⟨hsound, hsettled⟩ := h.normal hformed n hn
  exact ⟨hsound, hsettled, hsteady n hn⟩

section

variable {text : String} (o : Layout)

/-- An accepted query, printed and read again. -/
theorem Query.reread {q : Query} (h : Query.parse text = .ok q)
    (hsteady : ∀ n ∈ q.normal.nodes, n.steady = true) (hdepth : q.normal.depth ≤ Grammar.maxDepth) :
    Query.parse (q.print o) = .ok q.normal ∧ q.normal.print o = q.print o := by
  obtain ⟨hformed, hnumbers⟩ := (Grammar.tallied_ofDepth Grammar.maxDepth).query.run h
  have hready := ready_of_normalizes q.normalizes hformed hnumbers hsteady
  have hprint := q.print_normal o
  refine ⟨?_, hprint⟩
  rw [← hprint]
  exact (Query.parse_print hready).1 hdepth

/-- An accepted expression, printed and read again. -/
theorem Expr.reread {e : Expr} (h : Expr.parse text = .ok e)
    (hsteady : ∀ n ∈ e.normal.nodes, n.steady = true) (hdepth : e.normal.depth ≤ Grammar.maxDepth) :
    Expr.parse (e.print o) = .ok e.normal ∧ e.normal.print o = e.print o := by
  obtain ⟨hformed, hnumbers⟩ := (Grammar.tallied_ofDepth Grammar.maxDepth).expr.run h
  have hready := ready_of_normalizes e.normalizes hformed hnumbers hsteady
  have hprint := e.print_normal o
  refine ⟨?_, hprint⟩
  rw [← hprint]
  exact (Expr.parse_print hready).1 hdepth

end

/-- The field of an integer is not read as such: the integer would take the point. -/
example : (Node.expr (.field (.literal (.integer 1)) (.quoted "a"))).steady = false := rfl

end Sql
