import Sql.Proofs.Cursor

/-! How a parser ends on a text that is nested too deeply for it, and on one that is not. -/
namespace Sql.Parser

open Token (Kind)

variable {α β : Type} {F G P Q : Prop} {p : Parser α} {f : α → Parser β} {a : α} {b : β}
  {c c' : Cursor} {mid rest : List Kind} {k m : Nat}

/-- If the text fits, the parser reads `a` up to `rest`. If it does not, and there is nothing else
to try, the parser says so. -/
def Gives (F P : Prop) (p : Parser α) (c : Cursor) (a : α) (rest : List Kind) (m : Nat) : Prop :=
  (F → ∃ c', p c = .ok (a, c') ∧ c'.At rest m) ∧
    (P → ¬ F → ∃ e, p c = .error e ∧ e.cause = .tooDeep)

namespace Gives

theorem ok {d : Cursor} (hf : F) (h : p c = .ok (a, d)) (hd : d.At rest m) :
    Gives F P p c a rest m :=
  ⟨fun _ => ⟨d, h, hd⟩, fun _ hn => (hn hf).elim⟩

theorem pure (hc : c.At rest m) : Gives True P (pure a) c a rest m := ok trivial pure_apply hc

theorem tooDeep {e : ParseError} (hf : ¬ F) (h : p c = .error e) (he : e.cause = .tooDeep) :
    Gives F P p c a rest m :=
  ⟨fun hn => (hf hn).elim, fun _ _ => ⟨e, h, he⟩⟩

/-- Where alternatives are tried, only texts that fit matter. -/
theorem of_not (hp : ¬ P) (h : F → ∃ c', p c = .ok (a, c') ∧ c'.At rest m) :
    Gives F P p c a rest m :=
  ⟨h, fun hp' => (hp hp').elim⟩

theorem imp (h : Gives F P p c a rest m) (hf : G ↔ F) (hp : Q → P) : Gives G Q p c a rest m := by
  constructor
  · intro hg
    exact h.1 (hf.1 hg)
  · intro hq hg
    exact h.2 (hp hq) (fun hf' => hg (hf.2 hf'))

theorem congr (h : Gives F P p c a rest m) (hf : G ↔ F) : Gives G P p c a rest m := h.imp hf id

theorem marks (h : Gives F P p c a rest m) (hm : k = m) : Gives F P p c a rest k := hm ▸ h

theorem of_eq {p' : Parser α} (he : p' c' = p c) (h : Gives F P p c a rest m) :
    Gives F P p' c' a rest m := by
  unfold Gives
  rwa [he]

theorem seq (h : Gives F P p c a mid k) (hp : Q → P)
    (hf : ∀ c', c'.At mid k → Gives G Q (f a) c' b rest m) :
    Gives (F ∧ G) Q (p >>= f) c b rest m := by
  constructor
  · intro hn
    obtain ⟨c', hc, hr⟩ := h.1 hn.1
    rw [bind_ok hc]
    exact (hf c' hr).1 hn.2
  · intro hq hn
    by_cases ht : F
    · obtain ⟨c', hc, hr⟩ := h.1 ht
      rw [bind_ok hc]
      exact (hf c' hr).2 hq (fun hg => hn ⟨ht, hg⟩)
    · obtain ⟨e, he, hd⟩ := h.2 (hp hq) ht
      exact ⟨e, bind_error he, hd⟩

/-- A first step that cannot fail. -/
theorem step (h : p c = .ok (a, c')) (hf : Gives F P (f a) c' b rest m) :
    Gives F P (p >>= f) c b rest m := by
  unfold Gives at *
  rwa [bind_ok h]

/-- A last step that cannot fail. -/
theorem last (h : Gives F P p c a mid k)
    (hf : ∀ c', c'.At mid k → ∃ c'', f a c' = .ok (b, c'') ∧ c''.At rest m) :
    Gives F P (p >>= f) c b rest m := by
  refine (h.seq (G := True) id ?_).congr (iff_of_eq (and_true F)).symm
  intro c' hc
  obtain ⟨c'', h', hc''⟩ := hf c' hc
  exact ok trivial h' hc''

theorem map {g : α → β} (h : Gives F P p c a rest m) : Gives F P (g <$> p) c (g a) rest m := by
  constructor
  · intro hf
    obtain ⟨c', hc, hr⟩ := h.1 hf
    exact ⟨c', map_ok hc, hr⟩
  · intro hp hf
    obtain ⟨e, he, hd⟩ := h.2 hp hf
    exact ⟨e, map_error he, hd⟩

end Gives

/-- Repeated steps that each read something. -/
inductive Loops (step : α → Parser (Option α)) (a : α) (c : Cursor) : α → Cursor → Prop where
  | refl : Loops step a c a c
  | snoc {b d : α} {c' c'' : Cursor} (h : Loops step a c b c') (hs : step b c' = .ok (some d, c''))
      (hl : c''.ahead.length < c'.ahead.length) : Loops step a c d c''

section

variable {step : α → Parser (Option α)} {x y : α} {e : ParseError} {bound : Nat}

theorem iterateFor_some (h : step x c = .ok (some y, c')) :
    iterateFor step (bound + 1) x c = iterateFor step bound y c' := by
  rw [iterateFor, bind_ok h]

theorem iterateFor_none (h : step x c = .ok (none, c)) :
    iterateFor step bound x c = .ok (x, c) := by
  cases bound with
  | zero => rfl
  | succ bound =>
    rw [iterateFor, bind_ok h]
    rfl

theorem iterateFor_error (h : step x c = .error e) :
    iterateFor step (bound + 1) x c = .error e := by
  rw [iterateFor, bind_error h]

theorem Loops.cons {z : α} {c'' : Cursor} (hs : step x c = .ok (some y, c'))
    (hl : c'.ahead.length < c.ahead.length) (h : Loops step y c' z c'') : Loops step x c z c'' := by
  induction h with
  | refl => exact Loops.refl.snoc hs hl
  | snoc _ hs' hl' ih => exact ih.snoc hs' hl'

theorem Loops.iterateFor (h : Loops step x c y c') (hb : c.ahead.length ≤ bound) :
    ∃ bound', c'.ahead.length ≤ bound' ∧
      Parser.iterateFor step bound x c = Parser.iterateFor step bound' y c' := by
  induction h with
  | refl => exact ⟨bound, hb, rfl⟩
  | snoc _ hs hl ih =>
    obtain ⟨bound', hb', he⟩ := ih
    cases bound' with
    | zero => omega
    | succ bound' => exact ⟨bound', by omega, he.trans (iterateFor_some hs)⟩

theorem iterate_apply : iterate step x c = iterateFor step c.ahead.length x c := rfl

theorem Loops.iterate_ok (h : Loops step x c y c') (hs : step y c' = .ok (none, c')) :
    iterate step x c = .ok (y, c') := by
  obtain ⟨bound, -, he⟩ := h.iterateFor (Nat.le_refl _)
  rw [iterate_apply, he, iterateFor_none hs]

theorem Loops.iterate_error (h : Loops step x c y c') (hs : step y c' = .error e)
    (hl : 0 < c'.ahead.length) : iterate step x c = .error e := by
  obtain ⟨bound, hb, he⟩ := h.iterateFor (Nat.le_refl _)
  rw [iterate_apply, he]
  cases bound with
  | zero => omega
  | succ bound => exact iterateFor_error hs

end

variable {start : Parser α} {step : α → Parser (Option α)} {x y : α}

/-- As `Gives`, for a loop that has come to `x` and need not end there. -/
def Builds (F P : Prop) (start : Parser α) (step : α → Parser (Option α)) (c : Cursor) (x : α)
    (rest : List Kind) (m : Nat) : Prop :=
  (F → ∃ first c₁ c', start c = .ok (first, c₁) ∧ Loops step first c₁ x c' ∧ c'.At rest m) ∧
    (P → ¬ F → ∃ e, (start >>= iterate step) c = .error e ∧ e.cause = .tooDeep)

namespace Builds

theorem of_gives (h : Gives F P start c x rest m) : Builds F P start step c x rest m := by
  constructor
  · intro hf
    obtain ⟨c', hc, hr⟩ := h.1 hf
    exact ⟨x, c', c', hc, .refl, hr⟩
  · intro hp hf
    obtain ⟨e, he, hd⟩ := h.2 hp hf
    exact ⟨e, bind_error he, hd⟩

theorem extend (h : Builds F P start step c x mid k) (hp : Q → P)
    (hs : ∀ c', c'.At mid k → Gives G Q (step x) c' (some y) rest m)
    (hl : rest.length < mid.length) : Builds (F ∧ G) Q start step c y rest m := by
  constructor
  · intro hn
    obtain ⟨first, c₁, c₂, h₁, h₂, hr⟩ := h.1 hn.1
    obtain ⟨c₃, h₃, hr₃⟩ := (hs c₂ hr).1 hn.2
    exact ⟨first, c₁, c₃, h₁, h₂.snoc h₃ (by rwa [hr.length, hr₃.length]), hr₃⟩
  · intro hq hn
    by_cases hf : F
    · obtain ⟨first, c₁, c₂, h₁, h₂, hr⟩ := h.1 hf
      obtain ⟨e, he, hd⟩ := (hs c₂ hr).2 hq (fun hg => hn ⟨hf, hg⟩)
      refine ⟨e, ?_, hd⟩
      rw [bind_ok h₁]
      exact h₂.iterate_error he (by rw [hr.length]; omega)
    · exact h.2 (hp hq) hf

theorem imp (h : Builds F P start step c x rest m) (hf : G ↔ F) (hp : Q → P) :
    Builds G Q start step c x rest m := by
  constructor
  · intro hg
    exact h.1 (hf.1 hg)
  · intro hq hg
    exact h.2 (hp hq) (fun hf' => hg (hf.2 hf'))

theorem marks (h : Builds F P start step c x rest m) (hm : k = m) :
    Builds F P start step c x rest k := hm ▸ h

theorem finish (h : Builds F P start step c x rest m)
    (hs : ∀ c', c'.At rest m → step x c' = .ok (none, c')) :
    Gives F P (start >>= iterate step) c x rest m := by
  refine ⟨fun hf => ?_, h.2⟩
  obtain ⟨first, c₁, c₂, h₁, h₂, hr⟩ := h.1 hf
  refine ⟨c₂, ?_, hr⟩
  rw [bind_ok h₁]
  exact h₂.iterate_ok (hs c₂ hr)

end Builds

end Sql.Parser
