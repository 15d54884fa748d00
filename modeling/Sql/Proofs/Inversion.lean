import Sql.Proofs.Shapes
import Sql.Proofs.TallyExpressions
import Sql.Proofs.Written

/-! Which tokens a parser has read, told by what it returns. -/
namespace Sql

open Token (Kind)
open Token.Kind (commas given)

/-! ### Basic parsers -/

theorem Cursor.kinds_eq_cons {c : Cursor} {k : Kind} (h : c.kind = k) (hk : k ≠ .endOfInput) :
    c.kinds = k :: c.advance.kinds := by
  rw [kind_eq] at h
  rw [kinds_advance]
  cases hc : c.kinds with
  | nil =>
    rw [hc] at h
    exact absurd h.symm hk
  | cons x xs =>
    rw [hc] at h
    cases h
    rfl

theorem Cursor.Holds.of_append {K : Kind → Prop} {c d : Cursor} {ts : List Kind} (h : c.Holds K)
    (heq : c.kinds = ts ++ d.kinds) : d.Holds K :=
  fun k hk => h k (heq ▸ List.mem_append_right ts hk)

theorem Cursor.Holds.of_cons {K : Kind → Prop} {c d : Cursor} {k : Kind} (h : c.Holds K)
    (heq : c.kinds = k :: d.kinds) : d.Holds K :=
  fun x hx => h x (heq ▸ List.mem_cons_of_mem k hx)

theorem BinaryOp.token_of_binaryOp? {k : Kind} {op : BinaryOp} (h : k.binaryOp? = some op) :
    k = op.token := by
  unfold Kind.binaryOp? at h
  split at h
  · rename_i s
    cases s <;> cases h <;> rfl
  · cases h
    rfl
  · cases h
    rfl
  · cases h

theorem BinaryOp.token_ne_endOfInput (op : BinaryOp) : op.token ≠ .endOfInput := by
  cases op <;> rintro ⟨⟩

theorem UnaryOp.token_of_unaryOp? {k : Kind} {op : UnaryOp} (h : k.unaryOp? = some op) :
    k = op.token := by
  unfold Kind.unaryOp? at h
  split at h <;> cases h <;> rfl

theorem Name.callTokens_child (n : Name) (x : Ident) :
    (n.child x).callTokens = n.callTokens ++ [Kind.symbol .dot, .ident x] := by
  obtain ⟨y, ys, -, hparts⟩ := n.exists_foldl
  have hchild : (n.child x).parts = y :: (ys ++ [x]) := by
    rw [parts_child, hparts, List.cons_append]
  rw [callTokens_eq hparts, callTokens_eq hchild]
  simp

theorem Name.isQuoted_of_callTokens {n : Name} (h : ∀ k ∈ n.callTokens, k.Quoted) :
    n.IsQuoted := by
  obtain ⟨x, xs, -, hparts⟩ := n.exists_foldl
  rw [callTokens_eq hparts] at h
  obtain ⟨hx, hxs⟩ := List.forall_mem_cons.1 h
  rw [IsQuoted, hparts]
  refine List.forall_mem_cons.2 ⟨hx, fun y hy => ?_⟩
  exact hxs (.ident y) (List.mem_flatMap.2 ⟨y, hy, by simp⟩)

namespace Parser

variable {α : Type} {p : Parser α} {a : α} {c d : Cursor} {k : Kind}

theorem eatKeyword_eq_ok {w : Keyword} {b : Bool} (h : eatKeyword w c = .ok (b, d)) :
    c.kinds = given b (.keyword w) ++ d.kinds := by
  obtain ⟨rfl, hk, rfl⟩ | ⟨rfl, rfl⟩ := eat_eq_ok h
  · exact Cursor.kinds_eq_cons hk nofun
  · rfl

theorem expectSymbol_eq_ok {s : Symbol} {u : Unit} (h : expectSymbol s c = .ok (u, d)) :
    c.kinds = .symbol s :: d.kinds := by
  obtain ⟨b, c₁, hb, h⟩ := bind_eq_ok h
  obtain ⟨rfl, hk, rfl⟩ | ⟨rfl, rfl⟩ := eat_eq_ok hb
  · cases h
    exact Cursor.kinds_eq_cons hk nofun
  · cases h

theorem ident_eq_ok {x : Ident} (h : ident c = .ok (x, d)) : c.kinds = .ident x :: d.kinds := by
  obtain ⟨hkind, rfl⟩ := ident_eq_ok_iff.1 h
  exact Cursor.kinds_eq_cons hkind nofun

theorem parens_eq_ok (h : Parser.parens p c = .ok (a, d)) : ∃ c₁ d₁,
    c.kinds = .symbol .leftParen :: c₁.kinds ∧ p c₁ = .ok (a, d₁) ∧
      d₁.kinds = .symbol .rightParen :: d.kinds := by
  obtain ⟨_, c₁, hopen, h⟩ := bind_eq_ok h
  obtain ⟨_, d₁, hp, h⟩ := bind_eq_ok h
  obtain ⟨_, d₂, hclose, h⟩ := bind_eq_ok h
  cases h
  exact ⟨c₁, d₁, expectSymbol_eq_ok hopen, hp, expectSymbol_eq_ok hclose⟩

theorem name_eq_ok {n : Name} (h : name c = .ok (n, d)) : c.kinds = n.callTokens ++ d.kinds := by
  obtain ⟨x, c₁, hx, h⟩ := bind_eq_ok h
  obtain ⟨c₂, c₃, hget, h⟩ := bind_eq_ok h
  cases hget
  have hstep : ∀ (_ : Nat) (n : Name) c' n' c'', c.kinds = n.callTokens ++ c'.kinds →
      namePart n c' = .ok (some n', c'') → c.kinds = n'.callTokens ++ c''.kinds := by
    intro _ n c' n' c'' hn hpart
    obtain ⟨⟨⟩, -⟩ | ⟨y, ⟨⟩, hdot, hy, rfl⟩ := namePart_eq_ok hpart
    rw [hn, Cursor.kinds_eq_cons hdot nofun, Cursor.kinds_eq_cons hy nofun, Name.callTokens_child,
      List.append_assoc]
    rfl
  have hstart : c.kinds = (Name.single x).callTokens ++ c₁.kinds := ident_eq_ok hx
  obtain hend | ⟨_, c', hn, hpart⟩ := iterateFor_eq_ok
    (I := fun _ n c' => c.kinds = n.callTokens ++ c'.kinds) hstep h hstart
  · exact hend
  · obtain ⟨-, rfl⟩ | ⟨y, ⟨⟩, -⟩ := namePart_eq_ok hpart
    exact hn

section

variable {K : Kind → Prop} {Q : α → Prop} {W : List Kind → α → Prop}
  (hitem : ∀ c a d, c.Holds K → p c = .ok (a, d) → Q a → ∃ ts, c.kinds = ts ++ d.kinds ∧ W ts a)

include hitem

theorem moreItems_eq_ok {bound : Nat} {as : List α} (hc : c.Holds K)
    (h : moreItems p bound c = .ok (as, d)) (has : ∀ a ∈ as, Q a) :
    ∃ tss, c.kinds = tss.flatMap (.symbol .comma :: ·) ++ d.kinds ∧ List.Forall₂ W tss as := by
  induction bound generalizing c as with
  | zero =>
    cases h
    exact ⟨[], rfl, .nil⟩
  | succ bound ih =>
    obtain ⟨b, c₁, hb, h⟩ := bind_eq_ok h
    obtain ⟨rfl, hk, rfl⟩ | ⟨rfl, rfl⟩ := eat_eq_ok hb
    · obtain ⟨a, c₂, ha, h⟩ := bind_eq_ok h
      obtain ⟨as', c₃, has', h⟩ := bind_eq_ok h
      cases h
      obtain ⟨hqa, hqas⟩ := List.forall_mem_cons.1 has
      obtain ⟨ts, hts, hw⟩ := hitem _ _ _ hc.advance ha hqa
      obtain ⟨tss, htss, hws⟩ := ih (hc.advance.of_append hts) has' hqas
      refine ⟨ts :: tss, ?_, .cons hw hws⟩
      rw [Cursor.kinds_eq_cons hk nofun, hts, htss]
      simp
    · cases h
      exact ⟨[], rfl, .nil⟩

theorem commaList_eq_ok {as : List α} (hc : c.Holds K) (h : commaList p c = .ok (as, d))
    (has : ∀ a ∈ as, Q a) :
    ∃ tss, c.kinds = commas tss ++ d.kinds ∧ List.Forall₂ W tss as := by
  obtain ⟨a, c₁, ha, h⟩ := bind_eq_ok h
  obtain ⟨c₂, c₃, hget, h⟩ := bind_eq_ok h
  cases hget
  obtain ⟨as', c₄, has', h⟩ := bind_eq_ok h
  cases h
  obtain ⟨hqa, hqas⟩ := List.forall_mem_cons.1 has
  obtain ⟨ts, hts, hw⟩ := hitem _ _ _ hc ha hqa
  obtain ⟨tss, htss, hws⟩ := moreItems_eq_ok hitem (hc.of_append hts) has' hqas
  refine ⟨ts :: tss, ?_, .cons hw hws⟩
  rw [hts, htss, Kind.commas_cons, List.append_assoc]

end

theorem finish_eq_ok {c d : Cursor} {u : Unit} (h : finish c = .ok (u, d))
    (hc : c.Holds Kind.Found) : c.kinds = [] ∨ c.kinds = [.symbol .semicolon] := by
  have hnil : ∀ c : Cursor, c.Holds Kind.Found → c.kind = .endOfInput → c.kinds = [] := by
    intro c hc hk
    rw [c.kind_eq] at hk
    cases hkinds : c.kinds with
    | nil => rfl
    | cons k ks =>
      rw [hkinds] at hk
      exact absurd hk (hc k (by simp [hkinds])).ne_endOfInput
  obtain ⟨b, c₁, hb, hrest⟩ := bind_eq_ok h
  obtain ⟨ended, c₂, hended, hrest⟩ := bind_eq_ok hrest
  cases hended
  have hkind : c₁.kind = .endOfInput := by
    cases hk : c₁.kind == .endOfInput with
    | true => exact beq_iff_eq.1 hk
    | false =>
      rw [hk] at hrest
      cases hrest
  obtain ⟨rfl, hk, rfl⟩ | ⟨rfl, rfl⟩ := eat_eq_ok hb
  · exact .inr (by rw [Cursor.kinds_eq_cons hk nofun, hnil _ hc.advance hkind])
  · exact .inl (hnil _ hc hkind)

theorem run_eq_ok {α : Type} {p : Parser α} {text : String} {a : α}
    (h : p.run text = .ok a) :
    ∃ c d, p (.ofText text) = .ok (a, c) ∧ finish c = .ok ((), d) := by
  change ((do let a ← p; finish; return a : Parser α) (.ofText text)).map Prod.fst = _ at h
  cases hp : (do let a ← p; finish; return a : Parser α) (.ofText text) with
  | error =>
    rw [hp] at h
    cases h
  | ok r =>
    rw [hp] at h
    cases h
    obtain ⟨a, c, ha, hrest⟩ := bind_eq_ok hp
    obtain ⟨_, d, hfinish, hrest⟩ := bind_eq_ok hrest
    cases hrest
    exact ⟨c, _, ha, hfinish⟩

end Parser

end Sql
