import Sql.Parse.Query
import Sql.Proofs.Leading
import Sql.Proofs.Results

/-! Texts that begin with the same tokens. A parser that refuses a token in one of them refuses the
other as well, if they agree up to the token behind that one and it does not open a query. -/
namespace Sql

open Token (Kind)

/-! ### Plain texts -/

namespace Token.Kind

/-- The words that open a query. -/
def isQueryWord : Kind → Bool
  | .keyword .SELECT | .keyword .WITH | .keyword .VALUES | .keyword .TABLE => true
  | _ => false

theorem eq_of_isQueryWord {k : Kind} (h : k.isQueryWord = true) :
    k = .keyword .SELECT ∨ k = .keyword .WITH ∨ k = .keyword .VALUES ∨ k = .keyword .TABLE := by
  cases k with
  | keyword w =>
    cases w with
    | SELECT | WITH | VALUES | TABLE => simp
    | _ => cases h
  | _ => cases h

/-- Do the tokens start with something that the parser tries and may give up, or finds by looking
arbitrarily far ahead? These are lambdas, stars behind a name, grouping sets, the types of rows and
queries in several parentheses. -/
def startsTentative : List Kind → Bool
  | .symbol .arrow :: _ => true
  | .symbol .dot :: k :: _ => k == .symbol .star
  | .symbol .leftParen :: .symbol .leftParen :: k :: _ => k.isQueryWord
  | k :: l :: _ => k.isWord "GROUPING" && l.isWord "SETS" ||
      k.isWord "ROW" && l == .symbol .leftParen
  | _ => false

/-- Nothing tentative starts anywhere among the tokens. -/
def arePlain : List Kind → Bool
  | [] => true
  | k :: ks => !startsTentative (k :: ks) && arePlain ks

end Token.Kind

namespace Cursor

/-- The first `i` tokens of `s` have been read. -/
structure Behind (c : Cursor) (i : Nat) (s : Cursor) : Prop where
  ahead : c.ahead = s.ahead.drop i
  total : c.total = s.total
  le : i ≤ s.ahead.length

/-- Nothing tentative is ahead, and the mark of the end is none of the tokens. -/
structure Plain (s : Cursor) : Prop where
  tokens : ∀ k ∈ s.kinds, k ≠ .endOfInput
  plain : Kind.arePlain s.kinds = true

/-- Plain tokens whose first `n` kinds agree, the mark of the end included. -/
structure Agree (n : Nat) (s t : Cursor) : Prop where
  left : s.Plain
  right : t.Plain
  kinds : ∀ i < n, s.kindAt i = t.kindAt i

/-- The first `i` tokens of `s` have been read, and while two of the tokens that both texts share
are ahead, as many of `t` and as many placeholders. -/
structure Beside (n : Nat) (s t : Cursor) (i : Nat) (c d : Cursor) : Prop where
  behind : c.Behind i s
  other : i + 1 < n → d.Behind i t
  parameters : i + 1 < n → d.parameters = c.parameters

variable {c d s t : Cursor} {i j n : Nat}

theorem At.of_kind {k : Kind} (h : c.kind = k) (hk : k ≠ .endOfInput) :
    c.At (k :: c.advance.kinds) c.parameters := by
  refine ⟨?_, rfl⟩
  rw [kind_eq] at h
  rw [kinds_advance]
  cases hks : c.kinds with
  | nil =>
    rw [hks] at h
    exact absurd h.symm hk
  | cons l ks =>
    rw [hks] at h
    rw [← h]
    rfl

theorem Behind.refl (s : Cursor) : s.Behind 0 s := ⟨rfl, rfl, Nat.zero_le _⟩

theorem Behind.kindAt (h : c.Behind i s) (m : Nat) : c.kindAt m = s.kindAt (i + m) := by
  unfold Cursor.kindAt
  rw [h.ahead, List.getElem?_drop]

theorem Behind.kind (h : c.Behind i s) : c.kind = s.kindAt i := by
  rw [← kindAt_zero, h.kindAt, Nat.add_zero]

theorem Behind.length (h : c.Behind i s) : c.ahead.length = s.ahead.length - i := by
  rw [h.ahead, List.length_drop]

/-- The mark of the end counts as a token. -/
theorem Behind.token (h : c.Behind i s) :
    (s.ahead ++ [Token.ending s.total])[i]? = some c.token := by
  rw [Cursor.token, h.ahead, h.total]
  rcases Nat.lt_or_eq_of_le h.le with hi | rfl
  · rw [List.getElem?_append_left hi, List.drop_eq_getElem_cons hi, List.getElem?_eq_getElem hi]
    rfl
  · simp

theorem Behind.kinds (h : c.Behind i s) : c.kinds = s.kinds.drop i := by
  rw [Cursor.kinds, h.ahead, List.map_drop]
  rfl

theorem Behind.advance (h : c.Behind i s) (hne : c.kind ≠ .endOfInput) :
    c.advance.Behind (i + 1) s := by
  refine ⟨?_, h.total, ?_⟩
  · rw [Cursor.advance, h.ahead, List.tail_drop]
  · have hlen := h.length
    have hpos : 0 < c.ahead.length := by
      rw [List.length_pos_iff]
      intro hnil
      rw [kind_eq, Cursor.kinds, hnil] at hne
      exact hne rfl
    have := h.le
    omega

theorem Plain.behind (h : s.Plain) (hc : c.Behind i s) : c.Plain := by
  have hdrop : ∀ (i : Nat) (ks : List Kind), Kind.arePlain ks = true →
      Kind.arePlain (ks.drop i) = true := by
    intro i ks
    induction ks generalizing i with
    | nil => simp [Kind.arePlain]
    | cons k ks ih =>
      intro hks
      cases i with
      | zero => exact hks
      | succ i =>
        rw [Kind.arePlain, Bool.and_eq_true] at hks
        exact ih i hks.2
  refine ⟨?_, ?_⟩
  · intro k hk
    rw [hc.kinds] at hk
    exact h.tokens k (List.mem_of_mem_drop hk)
  · rw [hc.kinds]
    exact hdrop i _ h.plain

theorem Plain.not_startsTentative (h : s.Plain) : Kind.startsTentative s.kinds = false := by
  have hplain := h.plain
  cases hk : s.kinds with
  | nil => rfl
  | cons k ks =>
    rw [hk, Kind.arePlain, Bool.and_eq_true, Bool.not_eq_true'] at hplain
    exact hplain.1

theorem Plain.ahead_eq_nil (h : s.Plain) (hk : s.kind = .endOfInput) : s.ahead = [] := by
  rw [kind_eq] at hk
  cases hks : s.kinds with
  | nil => exact List.map_eq_nil_iff.1 hks
  | cons k ks =>
    rw [hks] at hk
    exact absurd hk (h.tokens k (by rw [hks]; exact List.mem_cons_self))

namespace Agree

variable (hst : Agree n s t) (hc : Beside n s t i c d) (hi : i + 1 < n)

include hst hc hi

theorem kindAt {m : Nat} (hm : m ≤ 1) : d.kindAt m = c.kindAt m := by
  rw [(hc.other hi).kindAt, hc.behind.kindAt, hst.kinds (i + m) (by omega)]

theorem kind : d.kind = c.kind := by
  rw [← kindAt_zero, ← kindAt_zero, hst.kindAt hc hi (Nat.zero_le _)]

theorem plain : d.Plain := hst.right.behind (hc.other hi)

theorem ahead_eq_nil (hnil : c.ahead = []) : d.ahead = [] := by
  refine (hst.plain hc hi).ahead_eq_nil ?_
  rw [hst.kind hc hi, kind_eq, Cursor.kinds, hnil]
  rfl

end Agree

theorem Beside.advance (hst : Agree n s t) (hc : Beside n s t i c d)
    (hne : c.kind ≠ .endOfInput) : Beside n s t (i + 1) c.advance d.advance where
  behind := hc.behind.advance hne
  other hi := (hc.other (by omega)).advance (by rwa [hst.kind hc (by omega)])
  parameters hi := hc.parameters (by omega)

end Cursor

namespace Parser

variable {α β : Type} {n i : Nat} {s t c d : Cursor} {p p' q q' : Parser α} {f g : α → Parser β}
  {Q : α → Nat → Prop} {R : β → Nat → Prop}

/-- From `c`, behind `i` tokens of `s`, the parser `p` goes forwards. Where it leaves two of the
tokens that both texts share ahead of it, `q` does from `d` what `p` does: it returns the same, or
fails if `p` refuses a token that does not open a query. Of results `Q` holds. -/
def EchoesFrom (n : Nat) (s t : Cursor) (i : Nat) (c d : Cursor) (p q : Parser α)
    (Q : α → Nat → Prop) : Prop :=
  match p c with
  | .ok (a, c') => ∃ j d', i ≤ j ∧ Q a j ∧ Cursor.Beside n s t j c' d' ∧
      (j + 1 < n → q d = .ok (a, d'))
  | .error e => ∀ k ∈ e.found?, ∃ (j : Nat) (c' : Cursor), i ≤ j ∧ c'.Behind j s ∧
      e.span = c'.token.span ∧ k = c'.kind ∧
      (j + 1 < n → k.isQueryWord = false → ∃ e', q d = .error e')

/-- From everywhere, in any two plain texts that begin with the same tokens. -/
def Echoes (p q : Parser α) : Prop :=
  ∀ ⦃n s t⦄, Cursor.Agree n s t → ∀ ⦃i c d⦄, Cursor.Beside n s t i c d →
    EchoesFrom n s t i c d p q fun _ _ => True

namespace EchoesFrom

theorem pure {a : α} (hc : Cursor.Beside n s t i c d) (h : Q a i) :
    EchoesFrom n s t i c d (pure a) (pure a) Q :=
  ⟨i, d, Nat.le_refl _, h, hc, fun _ => rfl⟩

theorem mono {Q' : α → Nat → Prop} (h : EchoesFrom n s t i c d p q Q)
    (hq : ∀ a j, i ≤ j → Q a j → Q' a j) : EchoesFrom n s t i c d p q Q' := by
  unfold EchoesFrom at *
  cases hr : p c with
  | error e =>
    rw [hr] at h
    exact h
  | ok r =>
    rw [hr] at h
    obtain ⟨j, d', hij, ha, hc', hd⟩ := h
    exact ⟨j, d', hij, hq _ _ hij ha, hc', hd⟩

theorem bind (h : EchoesFrom n s t i c d p q Q) (hf : ∀ a j c' d', i ≤ j → Q a j →
    Cursor.Beside n s t j c' d' → EchoesFrom n s t j c' d' (f a) (g a) R) :
    EchoesFrom n s t i c d (p >>= f) (q >>= g) R := by
  unfold EchoesFrom at h ⊢
  cases hr : p c with
  | error e =>
    rw [hr] at h
    rw [bind_error hr]
    intro k hk
    obtain ⟨j, c', hij, hc', hspan, hkind, hd⟩ := h k hk
    refine ⟨j, c', hij, hc', hspan, hkind, ?_⟩
    intro hj hopens
    obtain ⟨e', he'⟩ := hd hj hopens
    exact ⟨e', bind_error he'⟩
  | ok r =>
    obtain ⟨a, c'⟩ := r
    rw [hr] at h
    rw [bind_ok hr]
    obtain ⟨j, d', hij, ha, hc', hd⟩ := h
    have hrest := hf a j c' d' hij ha hc'
    unfold EchoesFrom at hrest
    cases hr' : f a c' with
    | error e =>
      rw [hr'] at hrest
      intro k hk
      obtain ⟨l, c'', hjl, hc'', hspan, hkind, hd'⟩ := hrest k hk
      refine ⟨l, c'', hij.trans hjl, hc'', hspan, hkind, ?_⟩
      intro hl hopens
      rw [bind_ok (hd (by omega))]
      exact hd' hl hopens
    | ok r =>
      rw [hr'] at hrest
      obtain ⟨l, d'', hjl, hb, hc'', hd'⟩ := hrest
      refine ⟨l, d'', hij.trans hjl, hb, hc'', ?_⟩
      intro hl
      rw [bind_ok (hd (by omega))]
      exact hd' hl

/-- The same parsers, some tokens later. -/
theorem after {i' : Nat} {c' d' : Cursor} (hi : i ≤ i') (hp : p' c = p c')
    (hq : i' + 1 < n → q' d = q d') (h : EchoesFrom n s t i' c' d' p q Q) :
    EchoesFrom n s t i c d p' q' Q := by
  unfold EchoesFrom at *
  rw [hp]
  cases hr : p c' with
  | error e =>
    rw [hr] at h
    intro k hk
    obtain ⟨j, c'', hij, hc', hspan, hkind, hd⟩ := h k hk
    refine ⟨j, c'', hi.trans hij, hc', hspan, hkind, ?_⟩
    intro hj
    rw [hq (by omega)]
    exact hd hj
  | ok r =>
    rw [hr] at h
    obtain ⟨j, d'', hij, ha, hc', hd⟩ := h
    refine ⟨j, d'', hi.trans hij, ha, hc', ?_⟩
    intro hj
    rw [hq (by omega)]
    exact hd hj

/-- The same parsers, written in another way. -/
theorem congr (hp : p' c = p c) (hq : i + 1 < n → q' d = q d)
    (h : EchoesFrom n s t i c d p q Q) : EchoesFrom n s t i c d p' q' Q :=
  after (Nat.le_refl _) hp hq h

/-- Another parser has the same error. -/
theorem error {p' q' : Parser β} {e : ParseError} (h : EchoesFrom n s t i c d p q Q)
    (he : p c = .error e) (hp : p' c = .error e)
    (hq : i + 1 < n → ∀ e, q d = .error e → ∃ e', q' d = .error e') :
    EchoesFrom n s t i c d p' q' R := by
  unfold EchoesFrom at *
  rw [he] at h
  rw [hp]
  intro k hk
  obtain ⟨j, c', hij, hc', hspan, hkind, hd⟩ := h k hk
  refine ⟨j, c', hij, hc', hspan, hkind, ?_⟩
  intro hj hother
  obtain ⟨e, he⟩ := hd hj hother
  exact hq (by omega) e he

/-- A first step that only looks, and sees the same in both texts as far as they agree. -/
theorem look {v : α} (hp : p c = .ok (v, c)) (hq : i + 1 < n → q d = .ok (v, d))
    (h : EchoesFrom n s t i c d (f v) (g v) R) : EchoesFrom n s t i c d (p >>= f) (q >>= g) R :=
  congr (bind_ok hp) (fun hi => bind_ok (hq hi)) h

/-- The next token is refused. -/
theorem refused {e : ParseError} (hc : Cursor.Beside n s t i c d) (hp : p c = .error e)
    (hspan : e.span = c.token.span) (hk : ∀ k ∈ e.found?, k = c.kind)
    (hq : i + 1 < n → c.kind.isQueryWord = false → ∃ e', q d = .error e') :
    EchoesFrom n s t i c d p q Q := by
  unfold EchoesFrom
  rw [hp]
  intro k hfound
  obtain rfl := hk k hfound
  exact ⟨i, c, Nat.le_refl _, hc.behind, hspan, rfl, hq⟩

theorem unexpected {expected : String} (hc : Cursor.Beside n s t i c d) :
    EchoesFrom n s t i c d (unexpected expected : Parser α) (Parser.unexpected expected) Q := by
  refine refused hc rfl rfl ?_ fun _ _ => ⟨_, rfl⟩
  rintro _ ⟨⟩
  rfl

section

variable (hst : Cursor.Agree n s t) (hc : Cursor.Beside n s t i c d)

include hst hc

/-- No more is seen than the next two tokens. -/
theorem glance (v : Cursor → α) (hp : ∀ c, p c = .ok (v c, c))
    (hv : d.kind = c.kind → d.kindAt 1 = c.kindAt 1 → v d = v c)
    (h : EchoesFrom n s t i c d (f (v c)) (g (v c)) R) :
    EchoesFrom n s t i c d (p >>= f) (p >>= g) R := by
  refine look (hp c) (fun hi => ?_) h
  rw [hp d, hv (hst.kind hc hi) (hst.kindAt hc hi (Nat.le_refl _))]

theorem peek {f g : Kind → Parser β} (h : EchoesFrom n s t i c d (f c.kind) (g c.kind) R) :
    EchoesFrom n s t i c d (Parser.peek >>= f) (Parser.peek >>= g) R :=
  glance hst hc (·.kind) (fun _ => rfl) (fun h _ => h) h

theorem peekAt_one {f g : Kind → Parser β}
    (h : EchoesFrom n s t i c d (f (c.kindAt 1)) (g (c.kindAt 1)) R) :
    EchoesFrom n s t i c d (peekAt 1 >>= f) (peekAt 1 >>= g) R :=
  glance hst hc (·.kindAt 1) (fun _ => rfl) (fun _ h => h) h

theorem check {k : Kind} {f g : Bool → Parser β}
    (h : EchoesFrom n s t i c d (f (c.kind == k)) (g (c.kind == k)) R) :
    EchoesFrom n s t i c d (Parser.check k >>= f) (Parser.check k >>= g) R :=
  glance hst hc (·.kind == k) (fun _ => rfl) (fun h _ => by rw [h]) h

theorem checkWord {w : String} {f g : Bool → Parser β}
    (h : EchoesFrom n s t i c d (f (c.kind.isWord w)) (g (c.kind.isWord w)) R) :
    EchoesFrom n s t i c d (Parser.checkWord w >>= f) (Parser.checkWord w >>= g) R :=
  glance hst hc (·.kind.isWord w) (fun _ => rfl) (fun h _ => by rw [h]) h

theorem advance_lt (hne : c.kind ≠ .endOfInput) :
    EchoesFrom n s t i c d advance Parser.advance fun _ j => i < j :=
  ⟨i + 1, d.advance, Nat.le_succ _, Nat.lt_succ_self _, hc.advance hst hne, fun _ => rfl⟩

theorem advance : EchoesFrom n s t i c d advance Parser.advance fun _ _ => True := by
  by_cases hend : c.kind = .endOfInput
  · -- At the end of the text nothing is read.
    have hstay : ∀ {c : Cursor}, c.ahead = [] → c.advance = c := by
      rintro ⟨_, _, _⟩ rfl
      rfl
    have hnil := (hst.left.behind hc.behind).ahead_eq_nil hend
    refine ⟨i, d, Nat.le_refl _, trivial, ?_, ?_⟩
    · rwa [hstay hnil]
    · intro hi
      rw [advance_apply, hstay (hst.ahead_eq_nil hc hi hnil)]
  · exact (advance_lt hst hc hend).mono fun _ _ _ _ => trivial

theorem eat {k : Kind} (hk : k ≠ .endOfInput) :
    EchoesFrom n s t i c d (eat k) (Parser.eat k) fun b j => b = true → i < j := by
  refine check hst hc ?_
  cases hb : c.kind == k
  · exact .pure hc (by simp)
  · have hne : c.kind ≠ .endOfInput := by rwa [beq_iff_eq.1 hb]
    exact (advance_lt hst hc hne).bind fun _ _ _ _ _ hj hc' => .pure hc' fun _ => hj

theorem eatSymbol (m : Symbol) :
    EchoesFrom n s t i c d (eatSymbol m) (Parser.eatSymbol m) fun b j => b = true → i < j :=
  eat hst hc nofun

theorem eatKeyword (w : Keyword) :
    EchoesFrom n s t i c d (eatKeyword w) (Parser.eatKeyword w) fun b j => b = true → i < j :=
  eat hst hc nofun

theorem expectKeyword (w : Keyword) :
    EchoesFrom n s t i c d (expectKeyword w) (Parser.expectKeyword w) fun _ j => i < j := by
  refine (eatKeyword hst hc w).bind fun b j c' d' _ hb hc' => ?_
  cases b
  · exact .unexpected hc'
  · exact .pure hc' (hb rfl)

/-- A token is read, and more may follow. -/
theorem advance_bind (hne : c.kind ≠ .endOfInput) (h : Echoes p q) :
    EchoesFrom n s t i c d (Parser.advance >>= fun _ => p) (Parser.advance >>= fun _ => q)
      fun _ j => i < j :=
  (advance_lt hst hc hne).bind fun _ _ _ _ _ hj hc' =>
    (h hst hc').mono fun _ _ hjl _ => Nat.lt_of_lt_of_le hj hjl

/-- A keyword is read, or else something that reads a token itself. -/
theorem branch {w : Keyword} {m : Nat} (hm : m ≤ i) (h : Echoes p q) (h' : ∀ {j c' d'}, m ≤ j →
    Cursor.Beside n s t j c' d' → EchoesFrom n s t j c' d' p' q' fun _ l => m < l) :
    EchoesFrom n s t i c d (Parser.eatKeyword w >>= fun b => if b then p else p')
      (Parser.eatKeyword w >>= fun b => if b then q else q') fun _ l => m < l := by
  refine (eatKeyword hst hc w).bind fun b j c' d' hij hb hc' => ?_
  cases b
  · exact h' (hm.trans hij) hc'
  · have hlt := Nat.lt_of_le_of_lt hm (hb rfl)
    exact (h hst hc').mono fun _ _ hjl _ => Nat.lt_of_lt_of_le hlt hjl

end

end EchoesFrom

namespace Echoes

theorem pure (a : α) : Echoes (pure a : Parser α) (Pure.pure a) := fun _ _ _ _ _ _ _ hc =>
  .pure hc trivial

theorem bind (h : Echoes p q) (hf : ∀ a, Echoes (f a) (g a)) : Echoes (p >>= f) (q >>= g) :=
  fun _ _ _ hst _ _ _ hc => (h hst hc).bind fun a _ _ _ _ _ hc' => hf a hst hc'

theorem ite {b : Prop} [Decidable b] (hp : Echoes p q) (hp' : Echoes p' q') :
    Echoes (if b then p else p') (if b then q else q') := by
  split
  · exact hp
  · exact hp'

/-- Which way to go is decided first. -/
theorem branch {b b' : Parser Bool} (h : Echoes b b') (hp : Echoes p q) (hp' : Echoes p' q') :
    Echoes (b >>= fun x => if x then p else p') (b' >>= fun x => if x then q else q') :=
  h.bind fun _ => ite hp hp'

/-- A parser that only looks, no further than to the second token ahead. -/
theorem look (v : Cursor → α) (hp : ∀ c, p c = .ok (v c, c))
    (hv : ∀ c d : Cursor, d.kind = c.kind → d.kindAt 1 = c.kindAt 1 → v d = v c) :
    Echoes p p := by
  intro n s t hst i c d hc
  rw [← bind_pure p]
  exact .glance hst hc v hp (hv c d) (.pure hc trivial)

theorem peek : Echoes peek peek := look (·.kind) (fun _ => rfl) fun _ _ h _ => h

theorem peekAt_one : Echoes (peekAt 1) (peekAt 1) :=
  look (·.kindAt 1) (fun _ => rfl) fun _ _ _ h => h

theorem check (k : Kind) : Echoes (check k) (check k) :=
  look (·.kind == k) (fun _ => rfl) fun _ _ h _ => by rw [h]

theorem checkWord (w : String) : Echoes (checkWord w) (checkWord w) :=
  look (·.kind.isWord w) (fun _ => rfl) fun _ _ h _ => by rw [h]

/-- The same token may stand elsewhere in the other text. -/
theorem here {f g : Span → Parser β} (hf : ∀ x y, Echoes (f x) (g y)) :
    Echoes (here >>= f) (here >>= g) := by
  intro n s t hst i c d hc
  exact .congr (bind_ok here_apply) (fun _ => bind_ok here_apply)
    (hf c.token.span d.token.span hst hc)

theorem advance : Echoes advance advance := fun _ _ _ hst _ _ _ hc => .advance hst hc

/-- An error with no token of its own says nothing of the other text. -/
theorem failAt {span : Span} {cause : ParseError.Cause}
    (hcause : (ParseError.mk cause span).found? = none) : Echoes (failAt span cause) q := by
  intro n s t _ i c d _ k hk
  rw [hcause] at hk
  cases hk

theorem unexpected {expected : String} :
    Echoes (unexpected expected : Parser α) (Parser.unexpected expected) :=
  fun _ _ _ _ _ _ _ hc => .unexpected hc

theorem unexpected_bind {expected : String} :
    Echoes (Parser.unexpected expected >>= f) (Parser.unexpected expected >>= g) := by
  intro n s t _ i c d hc
  exact .bind (Q := fun _ _ => False) (.unexpected hc) fun _ _ _ _ _ h => h.elim

theorem advanceIf (b : Bool) : Echoes (advanceIf b) (advanceIf b) := by
  cases b
  · exact pure false
  · exact advance.bind fun _ => pure true

theorem eat (k : Kind) : Echoes (eat k) (eat k) := (check k).bind advanceIf

theorem eatSymbol (m : Symbol) : Echoes (eatSymbol m) (eatSymbol m) := eat _

theorem eatKeyword (w : Keyword) : Echoes (eatKeyword w) (eatKeyword w) := eat _

theorem eatWord (w : String) : Echoes (eatWord w) (eatWord w) := (checkWord w).bind advanceIf

theorem require (b : Bool) {expected : String} : Echoes (unless b do Parser.unexpected expected)
    (unless b do Parser.unexpected expected) := by
  cases b
  · exact unexpected
  · exact pure ()

theorem expectSymbol (m : Symbol) : Echoes (expectSymbol m) (expectSymbol m) :=
  (eatSymbol m).bind fun b => require b

theorem expectKeyword (w : Keyword) : Echoes (expectKeyword w) (expectKeyword w) :=
  (eatKeyword w).bind fun b => require b

theorem valid (x y : Span) (built : Except Invalid α) : Echoes (valid x built) (valid y built) := by
  cases built with
  | ok a => exact pure a
  | error reason => exact failAt rfl

theorem optional {b : Bool} (h : Echoes p q) : Echoes (optional b p) (optional b q) := by
  cases b
  · exact pure none
  · rw [optional_true, optional_true, map_eq_pure_bind, map_eq_pure_bind]
    exact h.bind fun a => pure (some a)

end Echoes

/-! ### Loops -/

/-- A step that has read a token if it finds something, and that declines at the end of the text. -/
structure Strides (p q : Parser (Option α)) : Prop where
  echoes : ∀ ⦃n s t⦄, Cursor.Agree n s t → ∀ ⦃i c d⦄, Cursor.Beside n s t i c d →
    EchoesFrom n s t i c d p q fun r j => r ≠ none → i < j
  left : ∀ c, c.ahead = [] → p c = .ok (none, c)
  right : ∀ d, d.ahead = [] → q d = .ok (none, d)

namespace Strides

theorem decline : Strides (Pure.pure none : Parser (Option α)) (Pure.pure none) where
  echoes _ _ _ _ _ _ _ hc := .pure hc fun h => absurd rfl h
  left _ _ := rfl
  right _ _ := rfl

/-- Another step is taken if a token does not stand there. -/
theorem branch {p p' q q' : Parser (Option α)} {w : Keyword} (h : Echoes p q)
    (h' : Strides p' q') : Strides (eatKeyword w >>= fun b => if b then p else p')
      (eatKeyword w >>= fun b => if b then q else q') where
  echoes := by
    intro n s t hst i c d hc
    refine (EchoesFrom.eatKeyword hst hc w).bind fun b j c' d' hij hb hc' => ?_
    cases b
    · refine (h'.echoes hst hc').mono fun r l _ hlt hr => ?_
      exact Nat.lt_of_le_of_lt hij (hlt hr)
    · exact (h hst hc').mono fun r l hjl _ _ => Nat.lt_of_lt_of_le (hb rfl) hjl
  left := by
    rintro ⟨_, total, parameters⟩ rfl
    exact h'.left ⟨[], total, parameters⟩ rfl
  right := by
    rintro ⟨_, total, parameters⟩ rfl
    exact h'.right ⟨[], total, parameters⟩ rfl

section

variable {step step' : α → Parser (Option α)} (h : ∀ a, Strides (step a) (step' a))

include h

/-- The bounds of the two loops differ with the lengths of the texts, but neither is reached before
the end of its text. -/
theorem iterateFor (hst : Cursor.Agree n s t) (bound bound' : Nat) (a : α)
    (hc : Cursor.Beside n s t i c d) (hb : c.ahead.length ≤ bound)
    (hb' : i + 1 < n → d.ahead.length ≤ bound') :
    EchoesFrom n s t i c d (Parser.iterateFor step bound a) (Parser.iterateFor step' bound' a)
      fun _ _ => True := by
  induction bound generalizing i c d bound' a with
  | zero =>
    have hnil : c.ahead = [] := List.length_eq_zero_iff.1 (by omega)
    refine ⟨i, d, Nat.le_refl _, trivial, hc, ?_⟩
    intro hi
    exact iterateFor_none ((h a).right d (hst.ahead_eq_nil hc hi hnil))
  | succ bound ih =>
    have hmore : i + 1 < n → Parser.iterateFor step' bound' a d =
        Parser.iterateFor step' (bound' - 1 + 1) a d := by
      intro hi
      cases bound' with
      | zero =>
        have hnil : d.ahead = [] := List.length_eq_zero_iff.1 (by have := hb' hi; omega)
        rw [iterateFor_none ((h a).right d hnil), iterateFor_none ((h a).right d hnil)]
      | succ bound' => rfl
    refine .congr rfl hmore ?_
    refine ((h a).echoes hst hc).bind fun r j c' d' _ hlt hc' => ?_
    cases r with
    | none => exact .pure hc' trivial
    | some b =>
      have hij := hlt (by simp)
      have hlen := hc.behind.length
      have hlen' := hc'.behind.length
      have hle := hc'.behind.le
      refine ih (bound' - 1) b hc' (by omega) fun hj => ?_
      have hdlen := (hc.other (by omega)).length
      have hdlen' := (hc'.other hj).length
      have hbound := hb' (by omega)
      omega

theorem iterate (a : α) : Echoes (iterate step a) (Parser.iterate step' a) := by
  intro n s t hst i c d hc
  exact .congr iterate_apply (fun _ => iterate_apply)
    (iterateFor h hst _ _ a hc (Nat.le_refl _) fun _ => Nat.le_refl _)

end

end Strides

namespace Echoes

/-- As for other loops, the bounds may differ. -/
theorem moreItems (h : Echoes p q) (hst : Cursor.Agree n s t) (bound bound' : Nat)
    (hc : Cursor.Beside n s t i c d) (hb : c.ahead.length ≤ bound)
    (hb' : i + 1 < n → d.ahead.length ≤ bound') :
    EchoesFrom n s t i c d (moreItems p bound) (Parser.moreItems q bound') fun _ _ => True := by
  have hend : ∀ {d : Cursor} (bound : Nat), d.ahead = [] →
      Parser.moreItems q bound d = .ok ([], d) := by
    rintro ⟨_, _, _⟩ bound rfl
    cases bound <;> rfl
  induction bound generalizing i c d bound' with
  | zero =>
    have hnil : c.ahead = [] := List.length_eq_zero_iff.1 (by omega)
    exact ⟨i, d, Nat.le_refl _, trivial, hc, fun hi => hend _ (hst.ahead_eq_nil hc hi hnil)⟩
  | succ bound ih =>
    have hmore : i + 1 < n →
        Parser.moreItems q bound' d = Parser.moreItems q (bound' - 1 + 1) d := by
      intro hi
      cases bound' with
      | zero =>
        have hnil : d.ahead = [] := List.length_eq_zero_iff.1 (by have := hb' hi; omega)
        rw [hend _ hnil, hend _ hnil]
      | succ bound' => rfl
    refine .congr rfl hmore ?_
    refine (EchoesFrom.eatSymbol hst hc .comma).bind fun b j c' d' hij hlt hc' => ?_
    cases b
    · exact .pure hc' trivial
    refine (h hst hc').bind fun a l c'' d'' hjl _ hc'' => ?_
    have hij := hlt rfl
    have hlen := hc.behind.length
    have hlen' := hc''.behind.length
    have hle := hc''.behind.le
    refine (ih (bound' - 1) hc'' (by omega) ?_).bind fun as _ _ _ _ _ hc => .pure hc trivial
    intro hl
    have hdlen := (hc.other (by omega)).length
    have hdlen' := (hc''.other hl).length
    have hbound := hb' (by omega)
    omega

theorem commaList (h : Echoes p q) : Echoes (commaList p) (Parser.commaList q) := by
  intro n s t hst i c d hc
  refine (h hst hc).bind fun a j c' d' _ _ hc' => ?_
  have hmore := h.moreItems hst _ _ hc' (Nat.le_refl _) fun _ => Nat.le_refl d'.ahead.length
  exact .congr rfl (fun _ => rfl) (hmore.bind (R := fun _ _ => True)
    (f := fun as => Pure.pure (a :: as)) (g := fun as => Pure.pure (a :: as))
    fun as _ _ _ _ _ hc => .pure hc trivial)

theorem between {opening closing : Symbol} (h : Echoes p q) :
    Echoes (between opening closing p) (Parser.between opening closing q) :=
  (expectSymbol _).bind fun _ => h.bind fun a => (expectSymbol _).bind fun _ => pure a

theorem parens (h : Echoes p q) : Echoes (parens p) (Parser.parens q) := h.between

theorem finish : Echoes finish finish :=
  (eatSymbol _).bind fun _ => (check _).bind fun b => require b

/-! ### Names -/

theorem ident : Echoes ident ident := by
  refine peek.bind fun k => ?_
  split
  · exact advance.bind fun _ => pure _
  · exact unexpected

theorem namePart (x : Name) : Strides (namePart x) (Parser.namePart x) where
  echoes := by
    intro n s t hst i c d hc
    refine .check hst hc (.peekAt_one hst hc ?_)
    split
    · rename_i hdot
      have hne : c.kind ≠ .endOfInput := by
        intro hend
        simp [hend] at hdot
      refine (EchoesFrom.advance_lt hst hc hne).bind fun _ j c' d' _ hlt hc' => ?_
      refine (ident hst hc').bind fun y l _ _ hjl _ hc'' => .pure hc'' fun _ => ?_
      exact Nat.lt_of_lt_of_le hlt hjl
    · exact .pure hc fun h => absurd rfl h
  left := by
    rintro ⟨_, _, _⟩ rfl
    rfl
  right := by
    rintro ⟨_, _, _⟩ rfl
    rfl

theorem name : Echoes name name := ident.bind fun _ => Strides.iterate namePart _

theorem identList : Echoes identList identList := (commaList ident).parens

theorem optionalIdentList : Echoes optionalIdentList optionalIdentList :=
  branch (check _) identList (pure [])

theorem optionalName : Echoes optionalName optionalName := by
  have hname : Echoes (do return some (← Parser.ident)) (do return some (← Parser.ident)) :=
    ident.bind fun x => pure (some x)
  exact branch (eatKeyword _) hname (peek.bind fun k => ite hname (pure none))

end Echoes

end Parser

end Sql
