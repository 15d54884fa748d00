import Sql.ResolveError

/-! What can be said about the answers of resolution: about one of them, and about two side by
side. -/
namespace Sql

variable {α β γ δ : Type}

theorem bind_of_ok {x : Except ResolveError α} {f : α → Except ResolveError β} {a : α}
    (h : x = .ok a) : x >>= f = f a := by
  rw [h]
  rfl

theorem bind_of_error {x : Except ResolveError α} {f : α → Except ResolveError β}
    {e : ResolveError} (h : x = .error e) : x >>= f = .error e := by
  rw [h]
  rfl

theorem bind_eq_ok_iff {x : Except ResolveError α} {f : α → Except ResolveError β} {b : β} :
    x >>= f = .ok b ↔ ∃ a, x = .ok a ∧ f a = .ok b := by
  cases x with
  | error e => exact ⟨nofun, nofun⟩
  | ok a =>
    constructor
    · intro h
      exact ⟨a, rfl, h⟩
    · rintro ⟨_, ⟨⟩, h⟩
      exact h

/-- The same value or no value at all, whatever the failures are. -/
theorem toOption_eq_iff {x y : Except ResolveError α} :
    x.toOption = y.toOption ↔ ∀ a, x = .ok a ↔ y = .ok a := by
  have hok (z : Except ResolveError α) (a : α) : z.toOption = some a ↔ z = .ok a := by
    cases z <;> simp [Except.toOption]
  constructor
  · intro h a
    rw [← hok x, ← hok y, h]
  · intro h
    apply Option.ext
    intro a
    rw [hok, hok, h]

/-- The result has the property, if there is a result. -/
def Yields (P : α → Prop) (x : Except ResolveError α) : Prop := ∀ a, x = .ok a → P a

namespace Yields

variable {P : α → Prop} {Q : β → Prop} {x : Except ResolveError α}
  {f : α → Except ResolveError β}

theorem ok {a : α} (h : P a) : Yields P (.ok a) := by
  rintro _ ⟨⟩
  exact h

theorem error (e : ResolveError) : Yields P (.error e) := nofun

theorem bind (h : Yields P x) (hf : ∀ a, P a → Yields Q (f a)) : Yields Q (x >>= f) := by
  cases x with
  | error e => exact error e
  | ok a => exact hf a (h a rfl)

/-- A step whose result does not matter. -/
theorem skip (hf : ∀ a, Yields Q (f a)) : Yields Q (x >>= f) :=
  bind (P := fun _ => True) (fun _ _ => trivial) fun a _ => hf a

theorem map {g : α → β} (h : Yields P x) (hg : ∀ a, P a → Q (g a)) :
    Yields Q (do return g (← x)) :=
  h.bind fun a ha => ok (hg a ha)

theorem mapM (hf : ∀ a, P a → Yields Q (f a)) (as : List α) (has : ∀ a ∈ as, P a) :
    Yields (fun bs => ∀ b ∈ bs, Q b) (as.mapM f) := by
  induction as with
  | nil => exact ok nofun
  | cons a as ih =>
    obtain ⟨ha, has⟩ := List.forall_mem_cons.1 has
    rw [List.mapM_cons]
    exact (hf a ha).bind fun b hb => (ih has).map fun bs hbs => List.forall_mem_cons.2 ⟨hb, hbs⟩

end Yields

/-- If there is no result, the reason is another one. -/
def Spares (P : ResolveError → Prop) (x : Except ResolveError α) : Prop :=
  ∀ e, x = .error e → ¬ P e

namespace Spares

variable {P : ResolveError → Prop} {x : Except ResolveError α} {f : α → Except ResolveError β}

theorem ok (a : α) : Spares P (.ok a) := nofun

theorem error {e : ResolveError} (h : ¬ P e) : Spares P (.error e : Except ResolveError α) := by
  rintro _ ⟨⟩
  exact h

theorem bind (h : Spares P x) (hf : ∀ a, Spares P (f a)) : Spares P (x >>= f) := by
  cases x with
  | error e => exact error (h e rfl)
  | ok a => exact hf a

theorem mapM (hf : ∀ a, Spares P (f a)) (as : List α) : Spares P (as.mapM f) := by
  induction as with
  | nil => exact ok _
  | cons a as ih =>
    rw [List.mapM_cons]
    exact (hf a).bind fun b => ih.bind fun bs => ok _

end Spares

variable {excused : ResolveError → Prop}

/-- The second result corresponds to the first, unless the first is an excused failure. -/
inductive Refines (excused : ResolveError → Prop) (R : α → β → Prop) :
    Except ResolveError α → Except ResolveError β → Prop
  | ok {a : α} {b : β} (h : R a b) : Refines excused R (.ok a) (.ok b)
  | error (e : ResolveError) : Refines excused R (.error e) (.error e)
  | excuse {e : ResolveError} (h : excused e) (y : Except ResolveError β) :
    Refines excused R (.error e) y

namespace Refines

theorem refl : (x : Except ResolveError α) → Refines excused Eq x x
  | .ok _ => .ok rfl
  | .error e => .error e

theorem bind {R : α → β → Prop} {S : γ → δ → Prop} {x : Except ResolveError α}
    {y : Except ResolveError β} {f : α → Except ResolveError γ} {g : β → Except ResolveError δ}
    (h : Refines excused R x y) (hfg : ∀ a b, R a b → Refines excused S (f a) (g b)) :
    Refines excused S (x >>= f) (y >>= g) := by
  cases h with
  | ok h => exact hfg _ _ h
  | error e => exact .error e
  | excuse h y => exact .excuse h _

/-- Equal values are passed on. -/
theorem andThen {S : γ → δ → Prop} {x y : Except ResolveError α}
    {f : α → Except ResolveError γ} {g : α → Except ResolveError δ}
    (h : Refines excused Eq x y) (hfg : ∀ a, Refines excused S (f a) (g a)) :
    Refines excused S (x >>= f) (y >>= g) :=
  h.bind fun a _ hab => hab ▸ hfg a

theorem map {x y : Except ResolveError α} (h : Refines excused Eq x y)
    (f : α → Except ResolveError γ) : Refines excused Eq (x >>= f) (y >>= f) :=
  h.andThen fun a => .refl (f a)

theorem of_ok {a : α} {y : Except ResolveError α} (h : Refines excused Eq (.ok a) y) :
    y = .ok a := by
  cases h with
  | ok h => rw [h]

theorem eq {x y : Except ResolveError α} (h : Refines (fun _ => False) Eq x y) : x = y := by
  cases h with
  | ok h => rw [h]
  | error => rfl
  | excuse h => exact h.elim

end Refines

end Sql
