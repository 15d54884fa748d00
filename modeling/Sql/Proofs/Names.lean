import Sql.Proofs.Lists

/-! Reading names and lists of names. -/
namespace Sql

open Token (Kind)
open Token.Kind (joined)

namespace Ident

variable {x : Ident} {xs : List Ident}

theorem token_eq (h : x.delimited = true) : x.token = .ident x := by
  cases x
  simp_all [token, quoted]

@[simp] theorem token_isWord (x : Ident) (w : String) : x.token.isWord w = false := rfl

@[simp] theorem token_isIdent (x : Ident) : x.token.isIdent = true := rfl

end Ident

namespace Name

variable {n : Name}

theorem tokens_eq (h : n.Delimited) : n.tokens = n.callTokens := by
  unfold tokens callTokens
  refine congrArg _ (List.map_congr_left fun x hx => ?_)
  rw [Ident.token_eq (h x hx)]

theorem parts_child (n : Name) (x : Ident) : (n.child x).parts = n.parts ++ [x] := rfl

theorem parts_foldl (n : Name) (xs : List Ident) : (xs.foldl child n).parts = n.parts ++ xs := by
  induction xs generalizing n with
  | nil => simp
  | cons x xs ih => simp [ih, parts_child]

theorem eq_of_parts {n k : Name} (h : n.parts = k.parts) : n = k := by
  have := List.append_inj' h rfl
  cases n
  cases k
  simp_all

/-- A name is its first part and the other parts added to it one by one. -/
theorem exists_foldl (n : Name) : ∃ x xs, n = xs.foldl child (single x) ∧ n.parts = x :: xs := by
  obtain ⟨x, xs, h⟩ : ∃ x xs, n.parts = x :: xs := by
    unfold parts
    cases n.qualifier with
    | nil => exact ⟨n.base, [], rfl⟩
    | cons x xs => exact ⟨x, xs ++ [n.base], rfl⟩
  exact ⟨x, xs, eq_of_parts (by rw [h, parts_foldl]; rfl), h⟩

theorem callTokens_eq {x : Ident} {xs : List Ident} (h : n.parts = x :: xs) :
    n.callTokens = .ident x :: xs.flatMap fun y => [.symbol .dot, .ident y] := by
  simp [callTokens, h, joined, List.flatMap_map]

end Name

/-- No further part of a name follows. -/
def Token.Kind.NameEnds (rest : List Kind) : Prop :=
  Kind.next rest = .symbol .dot → (rest.getD 1 .endOfInput).isIdent = false

open Token.Kind (NameEnds)

namespace Parser

variable {c : Cursor} {n : Name} {x : Ident} {xs : List Ident} {rest : List Kind} {m : Nat}

theorem ident_apply (hc : c.At (.ident x :: rest) m) : ident c = .ok (x, c.advance) := by
  unfold ident
  rw [bind_ok (peek_apply hc)]
  rfl

theorem namePart_some (hc : c.At (.symbol .dot :: .ident x :: rest) m) :
    namePart n c = .ok (some (n.child x), c.advance.advance) := by
  unfold namePart
  rw [bind_ok (check_apply hc _), bind_ok (peekAt_apply hc 1)]
  simp only [Kind.next_cons, beq_self_eq_true, List.getD_cons_succ, List.getD_cons_zero,
    Kind.isIdent, Bool.and_self, if_true]
  rw [bind_ok advance_apply, bind_ok (ident_apply hc.advance)]
  rfl

theorem namePart_none (hc : c.At rest m) (hr : NameEnds rest) :
    namePart n c = .ok (none, c) := by
  unfold namePart
  rw [bind_ok (check_apply hc _), bind_ok (peekAt_apply hc 1)]
  by_cases h : Kind.next rest = .symbol .dot
  · simp only [hr h, Bool.and_false]
    rfl
  · simp only [beq_false_of_ne h, Bool.false_and]
    rfl

theorem namePart_loops
    (hc : c.At ((xs.flatMap fun y => [Kind.symbol .dot, .ident y]) ++ rest) m) :
    ∃ c', Loops namePart n c (xs.foldl Name.child n) c' ∧ c'.At rest m := by
  induction xs generalizing n c with
  | nil => exact ⟨c, .refl, by simpa using hc⟩
  | cons x xs ih =>
    have hc : c.At (.symbol .dot :: .ident x ::
        ((xs.flatMap fun y => [Kind.symbol .dot, .ident y]) ++ rest)) m := by simpa using hc
    obtain ⟨c', hl, hc'⟩ := ih hc.advance.advance
    refine ⟨c', hl.cons (namePart_some hc) ?_, hc'⟩
    rw [hc.length, hc.advance.advance.length, List.length_cons, List.length_cons]
    omega

theorem name_apply (hc : c.At (n.callTokens ++ rest) m) (hr : NameEnds rest) :
    ∃ c', name c = .ok (n, c') ∧ c'.At rest m := by
  obtain ⟨x, xs, hn, hp⟩ := n.exists_foldl
  rw [Name.callTokens_eq hp, List.cons_append] at hc
  obtain ⟨c', hl, hc'⟩ := namePart_loops (n := .single x) hc.advance
  refine ⟨c', ?_, hc'⟩
  unfold name
  rw [bind_ok (ident_apply hc), hn]
  exact hl.iterate_ok (namePart_none hc' hr)

theorem identList_apply (hne : xs ≠ []) (hd : ∀ x ∈ xs, x.delimited = true)
    (hc : c.At (Kind.parens (Ident.tokens xs) ++ rest) m) :
    ∃ c', identList c = .ok (xs, c') ∧ c'.At rest m := by
  rw [Kind.parens, List.cons_append, List.append_assoc] at hc
  have hitem : ∀ x ∈ xs, ReadsItem ident (fun x => [x.token]) (fun _ => []) (fun _ => True)
      True (fun _ => True) x := by
    intro x hx c m rest _ hc _
    have hc : c.At (.ident x :: rest) m := Ident.token_eq (hd x hx) ▸ hc
    exact .ok trivial (ident_apply hc) hc.advance
  have hnone : xs.flatMap (fun _ => ([] : List Node)) = [] := by simp
  have hxs := commaList_gives (m := m) (c := c.advance) hne hitem trivial (by simp)
    (by rw [hnone]; exact ready_nil) hc.advance
  obtain ⟨c', h, hc'⟩ := hxs.1 (by simp)
  rw [hnone] at hc'
  refine ⟨c'.advance, ?_, hc'.advance⟩
  unfold identList parens between
  rw [bind_ok (expectSymbol_of_eq hc), bind_ok h, bind_ok (expectSymbol_of_eq hc')]
  rfl

theorem optionalIdentList_apply (hd : ∀ x ∈ xs, x.delimited = true)
    (hc : c.At (Ident.listTokens [] xs ++ rest) m)
    (hr : Kind.next rest ≠ .symbol .leftParen) :
    ∃ c', optionalIdentList c = .ok (xs, c') ∧ c'.At rest m := by
  unfold optionalIdentList Ident.listTokens at *
  cases xs with
  | nil =>
    refine ⟨c, ?_, hc⟩
    rw [bind_ok (check_apply hc _)]
    simp only [List.isEmpty_nil, if_true, List.nil_append, beq_false_of_ne hr]
    rfl
  | cons x xs =>
    simp only [List.isEmpty_cons, List.nil_append] at hc
    obtain ⟨c', h, hc'⟩ := identList_apply (by simp) hd hc
    refine ⟨c', ?_, hc'⟩
    rw [bind_ok (check_apply hc _)]
    exact h

theorem optionalName_some (hc : c.At (.keyword .AS :: .ident x :: rest) m) :
    optionalName c = .ok (some x, c.advance.advance) := by
  unfold optionalName eatKeyword
  rw [bind_ok (eat_of_eq hc)]
  simp only [if_true]
  rw [bind_ok (ident_apply hc.advance)]
  rfl

theorem optionalName_none (hc : c.At rest m) (ha : Kind.next rest ≠ .keyword .AS)
    (hi : (Kind.next rest).isIdent = false) : optionalName c = .ok (none, c) := by
  unfold optionalName eatKeyword
  rw [bind_ok (eat_of_ne hc ha)]
  simp only [Bool.false_eq_true, if_false]
  rw [bind_ok (peek_apply hc), hi]
  rfl

end Parser

end Sql
