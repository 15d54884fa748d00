import Sql.Parse.Name
import Sql.Proofs.Tokens

/-! What the basic parsers do, told by the kinds of the tokens ahead. -/
namespace Sql

open Token (Kind)

namespace Cursor

def kinds (c : Cursor) : List Kind := c.ahead.map (·.kind)

/-- The tokens ahead are of the given kinds, and so many placeholders have been read. -/
structure At (c : Cursor) (ts : List Kind) (marks : Nat) : Prop where
  kinds : c.kinds = ts
  parameters : c.parameters = marks

variable {c : Cursor} {k : Kind} {ts : List Kind} {m : Nat}

theorem kind_eq (c : Cursor) : c.kind = Kind.next c.kinds := by
  unfold kind token kinds
  cases c.ahead <;> rfl

theorem kindAt_eq (c : Cursor) (n : Nat) : c.kindAt n = c.kinds.getD n .endOfInput := by
  unfold kindAt kinds
  cases h : c.ahead[n]? <;> simp [h]

theorem kinds_advance (c : Cursor) : c.advance.kinds = c.kinds.tail := by
  simp [kinds, advance, List.map_tail]

theorem kindAt_zero (c : Cursor) : c.kindAt 0 = c.kind := by
  unfold kindAt kind token
  cases c.ahead <;> rfl

theorem kind_advance (c : Cursor) : c.advance.kind = c.kindAt 1 := by
  rw [kind_eq, kindAt_eq, kinds_advance]
  rcases c.kinds with - | ⟨k, - | ⟨k', ks⟩⟩ <;> rfl

theorem length_kinds (c : Cursor) : c.kinds.length = c.ahead.length := List.length_map ..

namespace At

theorem kind (h : c.At ts m) : c.kind = Kind.next ts := by rw [kind_eq, h.kinds]

theorem kindAt (h : c.At ts m) (n : Nat) : c.kindAt n = ts.getD n .endOfInput := by
  rw [kindAt_eq, h.kinds]

theorem advance (h : c.At (k :: ts) m) : c.advance.At ts m :=
  ⟨by rw [kinds_advance, h.kinds, List.tail_cons], h.parameters⟩

theorem length (h : c.At ts m) : c.ahead.length = ts.length := by rw [← length_kinds, h.kinds]

end At

end Cursor

namespace Parser

variable {α β : Type} {p : Parser α} {f : α → Parser β} {a : α} {c c' : Cursor} {e : ParseError}
  {k : Kind} {ts : List Kind} {m : Nat}

theorem bind_ok (h : p c = .ok (a, c')) : (p >>= f) c = f a c' := by
  change (p c).bind (fun x => f x.1 x.2) = _
  rw [h]
  rfl

theorem bind_error (h : p c = .error e) : (p >>= f) c = .error e := by
  change (p c).bind (fun x => f x.1 x.2) = _
  rw [h]
  rfl

/-- Two steps that are taken together. -/
theorem bind_bind_ok {γ : Type} {b : β} {k : β → Parser γ} (h : (p >>= f) c = .ok (b, c')) :
    (p >>= fun x => f x >>= k) c = k b c' := by
  rw [← bind_assoc, bind_ok h]

theorem map_ok {g : α → β} (h : p c = .ok (a, c')) : (g <$> p) c = .ok (g a, c') := by
  change (p c).map (fun x => (g x.1, x.2)) = _
  rw [h]
  rfl

theorem map_error {g : α → β} (h : p c = .error e) : (g <$> p) c = .error e := by
  change (p c).map (fun x => (g x.1, x.2)) = _
  rw [h]
  rfl

theorem pure_apply : (pure a : Parser α) c = .ok (a, c) := rfl

theorem peek_apply (h : c.At ts m) : peek c = .ok (Kind.next ts, c) := by
  rw [← h.kind]
  rfl

theorem peekAt_apply (h : c.At ts m) (n : Nat) : peekAt n c = .ok (ts.getD n .endOfInput, c) := by
  rw [← h.kindAt]
  rfl

theorem here_apply : here c = .ok (c.token.span, c) := rfl

theorem advance_apply : advance c = .ok ((), c.advance) := rfl

theorem check_apply (h : c.At ts m) (k : Kind) :
    check k c = .ok (Kind.next ts == k, c) := by
  unfold check
  rw [bind_ok (peek_apply h)]
  rfl

theorem checkWord_apply (h : c.At ts m) (w : String) :
    checkWord w c = .ok ((Kind.next ts).isWord w, c) := by
  unfold checkWord
  rw [bind_ok (peek_apply h)]
  rfl

theorem advanceIf_true : advanceIf true c = .ok (true, c.advance) := rfl

theorem advanceIf_false : advanceIf false c = .ok (false, c) := rfl

theorem eat_of_eq (h : c.At (k :: ts) m) : eat k c = .ok (true, c.advance) := by
  unfold eat
  rw [bind_ok (check_apply h k)]
  simp [advanceIf_true]

theorem eat_of_ne (h : c.At ts m) (hk : Kind.next ts ≠ k) : eat k c = .ok (false, c) := by
  unfold eat
  rw [bind_ok (check_apply h k), beq_false_of_ne hk]
  rfl

theorem eatWord_of_isWord {w : String} (h : c.At (k :: ts) m) (hk : k.isWord w = true) :
    eatWord w c = .ok (true, c.advance) := by
  unfold eatWord
  rw [bind_ok (checkWord_apply h w)]
  simp [hk, advanceIf_true]

theorem eatWord_of_not {w : String} (h : c.At ts m)
    (hk : (Kind.next ts).isWord w = false) : eatWord w c = .ok (false, c) := by
  unfold eatWord
  rw [bind_ok (checkWord_apply h w), hk]
  rfl

theorem expectSymbol_of_eq {s : Symbol} (h : c.At (.symbol s :: ts) m) :
    expectSymbol s c = .ok ((), c.advance) := by
  unfold expectSymbol eatSymbol
  rw [bind_ok (eat_of_eq h)]
  rfl

theorem expectSymbol_of_ne {s : Symbol} (h : c.At ts m) (hk : Kind.next ts ≠ .symbol s) :
    ∃ e, expectSymbol s c = .error e := by
  unfold expectSymbol eatSymbol
  rw [bind_ok (eat_of_ne h hk)]
  exact ⟨_, rfl⟩

theorem expectKeyword_of_eq {w : Keyword} (h : c.At (.keyword w :: ts) m) :
    expectKeyword w c = .ok ((), c.advance) := by
  unfold expectKeyword eatKeyword
  rw [bind_ok (eat_of_eq h)]
  rfl

theorem optional_true : optional true p = some <$> p := rfl

theorem optional_false : optional false p = pure none := rfl

theorem valid_ok (span : Span) : valid span (.ok a) c = .ok (a, c) := rfl

theorem attempt_ok (h : p c = .ok (a, c')) : attempt p c = .ok (.ok a, c') := by
  unfold attempt
  rw [h]

theorem attempt_error (h : p c = .error e) : attempt p c = .ok (.error e, c) := by
  unfold attempt
  rw [h]

theorem orFailWith_ok (h : p c = .ok (a, c')) : orFailWith p e c = .ok (a, c') := by
  unfold orFailWith
  rw [h]

theorem orFailWith_error {e' : ParseError} (h : p c = .error e') :
    orFailWith p e c = .error e := by
  unfold orFailWith
  rw [h]

end Parser

end Sql
