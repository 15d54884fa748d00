import Sql.Proofs.Calls
import Sql.Proofs.Results

/-! What a parser never returns, whatever it reads. -/
namespace Sql

namespace Parser

variable {α β : Type} {P : α → Prop} {f : β → Parser α} {p q : Parser α} {a : α}

/-- The parser returns nothing that has the property. -/
def Never (P : α → Prop) (p : Parser α) : Prop := ∀ c a d, p c = .ok (a, d) → ¬ P a

namespace Never

/-- Only what a parser returns in the end matters. -/
theorem after {p : Parser β} (hf : ∀ b, Never P (f b)) : Never P (p >>= f) := by
  intro c a d h
  obtain ⟨b, c₁, -, hrest⟩ := bind_eq_ok h
  exact hf b c₁ a d hrest

theorem pure (h : ¬ P a) : Never P (pure a) := by
  rintro c _ _ ⟨⟩
  exact h

theorem unexpected {expected : String} : Never P (unexpected expected) := nofun

theorem ite {b : Prop} [Decidable b] (hp : Never P p) (hq : Never P q) :
    Never P (if b then p else q) := by
  split
  · exact hp
  · exact hq

theorem branch {b : Parser Bool} (hp : Never P p) (hq : Never P q) :
    Never P (b >>= fun b => if b = true then p else q) :=
  after fun _ => .ite hp hq

theorem parens (h : Never P p) : Never P (parens p) := by
  intro c a d hp
  obtain ⟨-, d₁, hp, -, -⟩ := parens_eq_ok_iff.1 hp
  exact h _ a d₁ hp

theorem valid {span : Span} {built : Except Invalid α} (h : ∀ a, built = .ok a → ¬ P a) :
    Never P (valid span built) := by
  cases built with
  | ok a => exact .pure (h a rfl)
  | error => exact nofun

end Never

end Parser

/-! ### Expressions that begin with a word or a parenthesis -/

namespace Grammar

open Sql.Parser (Never)

variable (g : Grammar) {P : Expr → Prop}

theorem never_callTail (hP : ∀ c, ¬ P (.call c)) (n : Name) (quantifier : Option Quantifier)
    (args : List Expr) (order : List OrderTerm) : Never P (g.callTail n quantifier args order) := by
  refine .after fun filtered => .after fun next => .after fun filter => .after fun next => ?_
  have hover : ∀ nulls, Never P (do
      let window ← Parser.optional (← Parser.eatWord "OVER") g.windowTarget
      return .call ⟨n, quantifier, args, order, filter, nulls, window⟩) :=
    fun _ => .after fun _ => .after fun _ => .pure (hP _)
  refine .ite ?_ (hover none)
  exact .branch (.after fun _ => hover _) (.branch (.after fun _ => hover _) (hover none))

theorem never_call (hP : ∀ c, ¬ P (.call c)) (n : Name) : Never P (g.call n) := by
  refine .after fun _ => .branch (g.never_callTail hP n none [] []) ?_
  exact .after fun _ => .after fun _ => .after fun _ => .after fun _ =>
    g.never_callTail hP n _ _ _

theorem never_lambdaBody (hP : ∀ params body, ¬ P (.lambda params body)) (params : List Ident) :
    Never P (g.lambdaBody params) := by
  refine .after fun span => .after fun _ => .after fun body => .valid fun e he => ?_
  unfold Expr.buildLambda at he
  split at he
  · cases he
  · split at he <;> cases he
    exact hP params body

theorem never_caseWhen
    (hP : ∀ operand branches otherwise, ¬ P (.caseWhen operand branches otherwise)) :
    Never P g.caseWhen := by
  refine .after fun span => .after fun _ => .after fun plain => .after fun operand =>
    .after fun branches => .ite (.after fun _ => ?_) ?_
  all_goals
    refine .after fun _ => .after fun otherwise => .after fun _ => .valid fun e he => ?_
    unfold Expr.buildCase at he
    split at he <;> cases he
    exact hP _ _ _

theorem never_cast (hP : ∀ e type safe, ¬ P (.cast e type safe)) (safe : Bool) :
    Never P (g.cast safe) :=
  .after fun _ => .parens (.after fun _ => .after fun _ => .after fun _ => .pure (hP _ _ _))

theorem never_interval (hP : ∀ text negative start stop, ¬ P (.interval text negative start stop)) :
    Never P interval := by
  have hbuild : ∀ text negative start stop e,
      Expr.buildInterval text negative start stop = .ok e → ¬ P e := by
    intro text negative start stop e he
    unfold Expr.buildInterval at he
    split at he
    · cases he
      exact hP _ _ _ _
    · split at he <;> cases he
      exact hP _ _ _ _
  refine .after fun span => .after fun _ => .after fun negative => .ite ?_ (.after fun _ => ?_)
  -- The same follows with a sign and without.
  all_goals
    refine .after fun k => ?_
    split
    · exact .after fun _ => .after fun _ => .after fun _ => .after fun _ => .valid (hbuild _ _ _ _)
    · exact .unexpected

end Grammar

end Sql
