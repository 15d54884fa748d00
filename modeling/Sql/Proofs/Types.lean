import Mathlib
import Sql.Parse.Type
import Sql.Proofs.Names

/-! Reading data types. -/
namespace Sql

open Token (Kind)

namespace Parser

variable {α : Type} {c : Cursor} {rest : List Kind} {m n : Nat} {inner : Parser DataType}

theorem parens_gives {F P : Prop} {p : Parser α} {a : α} {k : Nat} {ts : List Kind}
    (hc : c.At (Kind.parens ts ++ rest) m)
    (h : ∀ c', c'.At (ts ++ .symbol .rightParen :: rest) m →
      Gives F P p c' a (.symbol .rightParen :: rest) k) :
    Gives F P (parens p) c a rest k := by
  simp only [Kind.parens, List.cons_append, List.append_assoc, List.nil_append] at hc
  unfold parens between
  refine .step (expectSymbol_of_eq hc) ((h _ hc.advance).last fun c' hc' => ?_)
  exact ⟨c'.advance, by rw [bind_ok (expectSymbol_of_eq hc')]; rfl, hc'.advance⟩

theorem parens_apply {p : Parser α} {a : α} {k : Nat} {ts : List Kind}
    (hc : c.At (Kind.parens ts ++ rest) m)
    (h : ∀ c', c'.At (ts ++ .symbol .rightParen :: rest) m →
      ∃ c'', p c' = .ok (a, c'') ∧ c''.At (.symbol .rightParen :: rest) k) :
    ∃ c', parens p c = .ok (a, c') ∧ c'.At rest k :=
  (parens_gives (F := True) (P := True) hc fun c' hc' =>
    let ⟨_, h', hr⟩ := h c' hc'
    .ok trivial h' hr).1 trivial

theorem typeParameter_apply (hn : n ≤ maxTypeParameter) (hc : c.At (.number n :: rest) m) :
    typeParameter c = .ok (n, c.advance) := by
  unfold maxTypeParameter at hn
  have hi : (Int64.ofNat n).toInt = n := Int64.toInt_ofNat_of_lt (by omega)
  have hl : ¬ (Int64.ofNat n < 0 ∨ (maxTypeParameter : Int) < (Int64.ofNat n).toInt) := by
    rw [Int64.lt_iff_toInt_lt, hi, maxTypeParameter]
    simp
    omega
  unfold typeParameter
  rw [bind_ok (peek_apply hc)]
  simp only [Kind.next_cons, if_neg hl]
  rw [bind_ok advance_apply, hi, Int.toNat_natCast]
  rfl

/-- What may stand behind a type. -/
def TypeEnds (rest : List Kind) : Prop :=
  Kind.next rest ∈ [Kind.symbol .comma, .symbol .rightParen, .endOfInput]

theorem TypeEnds.elim {Q : Kind → Prop} (h : TypeEnds rest) (h₁ : Q (.symbol .comma))
    (h₂ : Q (.symbol .rightParen)) (h₃ : Q .endOfInput) : Q (Kind.next rest) := by
  simp only [TypeEnds, List.mem_cons, List.not_mem_nil, or_false] at h
  rcases h with h | h | h <;> rwa [h]

theorem decimalType_apply {p s : Nat} (h : (Scalar.decimal p s).InRange)
    (hc : c.At (Kind.parens [.number p, .symbol .comma, .number s] ++ rest) m) :
    decimalType c = .ok (.decimal p s, c.advance.advance.advance.advance.advance) := by
  simp only [Scalar.InRange, DataType.maxPrecision] at h
  have hp : ¬ (p = 0 ∨ DataType.maxPrecision < p) := by
    unfold DataType.maxPrecision
    omega
  have hs : ¬ p < s := by omega
  unfold decimalType
  rw [bind_ok (check_apply hc _)]
  simp only [Kind.parens, List.cons_append, Kind.next_cons, beq_self_eq_true, if_true]
  rw [bind_ok here_apply, bind_ok advance_apply]
  have hc := hc.advance
  rw [bind_ok (typeParameter_apply (by unfold maxTypeParameter; omega) hc)]
  have hc := hc.advance
  rw [eatSymbol, bind_ok (eat_of_eq hc)]
  simp only [if_true]
  have hc := hc.advance
  rw [bind_ok (typeParameter_apply (by unfold maxTypeParameter; omega) hc)]
  have hc := hc.advance
  rw [bind_ok (expectSymbol_of_eq hc)]
  simp only [if_neg hp, if_neg hs]
  rfl

theorem typeLength_apply (h : 1 ≤ n ∧ n ≤ DataType.maxLength)
    (hc : c.At (Kind.parens [.number n] ++ rest) m) :
    ∃ c', typeLength c = .ok (n, c') ∧ c'.At rest m := by
  unfold DataType.maxLength at h
  have hn : ¬ (n = 0 ∨ DataType.maxLength < n) := by
    unfold DataType.maxLength
    omega
  obtain ⟨c', h', hc'⟩ := parens_apply (p := typeParameter) (a := n) (k := m) hc fun c' hc' =>
    ⟨_, typeParameter_apply (by unfold maxTypeParameter; omega) hc', hc'.advance⟩
  refine ⟨c', ?_, hc'⟩
  unfold typeLength
  rw [bind_ok here_apply, bind_ok h']
  simp only [if_neg hn]
  rfl

theorem timePrecision_apply (h : n ≤ DataType.maxTimePrecision)
    (hc : c.At (Kind.parens [.number n] ++ rest) m) :
    ∃ c', timePrecision c = .ok (n, c') ∧ c'.At rest m := by
  unfold DataType.maxTimePrecision at h
  have hn : ¬ DataType.maxTimePrecision < n := by
    unfold DataType.maxTimePrecision
    omega
  obtain ⟨c', h', hc'⟩ := parens_apply (p := typeParameter) (a := n) (k := m) hc fun c' hc' =>
    ⟨_, typeParameter_apply (by unfold maxTypeParameter; omega) hc', hc'.advance⟩
  refine ⟨c', ?_, hc'⟩
  unfold timePrecision
  rw [bind_ok (check_apply hc _)]
  simp only [Kind.parens, List.cons_append, Kind.next_cons, beq_self_eq_true, if_true]
  rw [bind_ok here_apply, bind_ok h']
  simp only [if_neg hn]
  rfl

theorem timeZone_true
    (hc : c.At (.keyword .WITH :: .word "TIME" :: .word "ZONE" :: rest) m) :
    timeZone c = .ok (true, c.advance.advance.advance) := by
  have ht : (Kind.word "TIME").isWord "TIME" = true := by cbv
  have hz : (Kind.word "ZONE").isWord "ZONE" = true := by cbv
  unfold timeZone
  rw [bind_ok (check_apply hc _), bind_ok (checkWord_apply hc _), bind_ok (peekAt_apply hc 1)]
  simp only [Kind.next_cons, beq_self_eq_true, Bool.true_or, List.getD_cons_succ,
    List.getD_cons_zero, ht, Bool.and_self, if_true]
  rw [bind_ok advance_apply, bind_ok advance_apply,
    bind_ok (eatWord_of_isWord hc.advance.advance hz)]
  rfl

theorem timeZone_false (hc : c.At rest m) (hr : TypeEnds rest) : timeZone c = .ok (false, c) := by
  have hz := hr.elim (Q := fun k => (k == .keyword .WITH || k.isWord "WITHOUT") = false)
    rfl rfl rfl
  unfold timeZone
  rw [bind_ok (check_apply hc _), bind_ok (checkWord_apply hc _), bind_ok (peekAt_apply hc 1)]
  simp only [hz, Bool.false_and]
  rfl

theorem intervalField_apply {f : IntervalField} (hc : c.At (f.token :: rest) m) :
    intervalField c = .ok (f, c.advance) := by
  have hf : IntervalField.all.find? (fun g => f.token.isWord g.sql) = some f := by
    cases f <;> cbv
  unfold intervalField
  rw [bind_ok (peek_apply hc), Kind.next_cons, hf]
  rfl

theorem dataType_word {w : String} (hw : w.toUpper = w) (hc : c.At (.word w :: rest) m) :
    dataType inner c = typeNamed inner c.token.span w c.advance := by
  unfold dataType
  rw [bind_ok here_apply, bind_ok (peek_apply hc)]
  change (do advance; typeNamed inner c.token.span w.toUpper : Parser DataType) c = _
  rw [bind_ok advance_apply, hw]

/-- A type never starts with a delimited name. -/
theorem dataType_quoted {x : Ident} (hx : x.delimited = true) (hc : c.At (.ident x :: rest) m) :
    ∃ e, dataType inner c = .error e := by
  unfold dataType
  rw [bind_ok here_apply, bind_ok (peek_apply hc)]
  simp only [Kind.next_cons, hx, if_true]
  exact ⟨_, rfl⟩

theorem temporal_apply {w : String} {zoned : Bool} {make : Nat → Bool → Scalar}
    (hw : w.toUpper = w) (hn : n ≤ DataType.maxTimePrecision)
    (hm : ∀ span, typeNamed inner span w = do
      let precision ← timePrecision
      return .scalar (make precision (← timeZone)))
    (hc : c.At (Scalar.temporalTokens w n zoned ++ rest) m) (hr : TypeEnds rest) :
    ∃ c', dataType inner c = .ok (.scalar (make n zoned), c') ∧ c'.At rest m := by
  simp only [Scalar.temporalTokens, List.cons_append, List.append_assoc] at hc
  obtain ⟨c₁, h₁, hc₁⟩ := timePrecision_apply hn hc.advance
  rw [dataType_word hw hc, hm, bind_ok h₁]
  cases zoned with
  | true => exact ⟨_, by rw [bind_ok (timeZone_true hc₁)]; rfl, hc₁.advance.advance.advance⟩
  | false => exact ⟨_, by rw [bind_ok (timeZone_false hc₁ hr)]; rfl, hc₁⟩

theorem intervalType_apply {start stop : IntervalField} {span : Span} {s : Scalar}
    (hs : (start = .year ∧ stop = .month ∧ s = .yearToMonth) ∨
      (start = .day ∧ stop = .second ∧ s = .dayToSecond))
    (hc : c.At (start.token :: .word "TO" :: stop.token :: rest) m) :
    intervalType span c = .ok (s, c.advance.advance.advance) := by
  have ht : (Kind.word "TO").isWord "TO" = true := by cbv
  unfold intervalType
  rw [bind_ok (intervalField_apply hc), bind_ok (eatWord_of_isWord hc.advance ht)]
  simp only [if_true]
  rw [bind_ok (intervalField_apply hc.advance.advance)]
  rcases hs with ⟨rfl, rfl, rfl⟩ | ⟨rfl, rfl, rfl⟩ <;> rfl

theorem scalar_apply {s : Scalar} (h : s.InRange) (hc : c.At (s.tokens ++ rest) m)
    (hr : TypeEnds rest) :
    ∃ c', dataType inner c = .ok (.scalar s, c') ∧ c'.At rest m := by
  cases s with
  | boolean | tinyint | smallint | integer | bigint | real | varbinary | json | date =>
    refine ⟨c.advance, ?_, hc.advance⟩
    rw [dataType_word (by cbv) hc, Scalar.sql, typeNamed]
    rfl
  | double =>
    have hp := hr.elim (Q := fun k => k.isWord "PRECISION" = false) rfl rfl rfl
    refine ⟨c.advance, ?_, hc.advance⟩
    rw [dataType_word (by cbv) hc, Scalar.sql, typeNamed,
      bind_ok (eatWord_of_not hc.advance hp)]
    rfl
  | decimal p s =>
    refine ⟨_, ?_, hc.advance.advance.advance.advance.advance.advance⟩
    rw [dataType_word (by cbv) hc, typeNamed,
      bind_ok (decimalType_apply h hc.advance)]
    rfl
  | varchar length =>
    cases length with
    | none =>
      have hp := hr.elim (Q := fun k => (k == .symbol .leftParen) = false) rfl rfl rfl
      have hc₁ : c.advance.At rest m := hc.advance
      have hl : check (.symbol .leftParen) c.advance = .ok (false, c.advance) := by
        rw [check_apply hc₁, hp]
      refine ⟨c.advance, ?_, hc.advance⟩
      rw [dataType_word (by cbv) hc, Scalar.sql, typeNamed, bind_ok hl]
      rfl
    | some n =>
      have hl : check (.symbol .leftParen) c.advance = .ok (true, c.advance) :=
        check_apply hc.advance _
      obtain ⟨c₁, h₁, hc₁⟩ := typeLength_apply h hc.advance
      refine ⟨c₁, ?_, hc₁⟩
      rw [dataType_word (by cbv) hc, typeNamed, bind_ok hl, optional_true,
        bind_ok (map_ok h₁)]
      rfl
  | char n =>
    have hl : check (.symbol .leftParen) c.advance = .ok (true, c.advance) :=
      check_apply hc.advance _
    obtain ⟨c₁, h₁, hc₁⟩ := typeLength_apply h hc.advance
    refine ⟨c₁, ?_, hc₁⟩
    rw [dataType_word (by cbv) hc, typeNamed, bind_ok hl, optional_true,
      bind_ok (map_ok h₁)]
    rfl
  | time p zoned =>
    exact temporal_apply (by cbv) h (fun _ => by rw [typeNamed]) hc hr
  | timestamp p zoned =>
    exact temporal_apply (by cbv) h (fun _ => by rw [typeNamed]) hc hr
  | yearToMonth =>
    refine ⟨_, ?_, hc.advance.advance.advance.advance⟩
    rw [dataType_word (by cbv) hc, typeNamed,
      bind_ok (intervalType_apply (.inl ⟨rfl, rfl, rfl⟩) hc.advance)]
    rfl
  | dayToSecond =>
    refine ⟨_, ?_, hc.advance.advance.advance.advance⟩
    rw [dataType_word (by cbv) hc, typeNamed,
      bind_ok (intervalType_apply (.inr ⟨rfl, rfl, rfl⟩) hc.advance)]
    rfl

/-- The parser reads the types that are nested at most so deeply. -/
structure TypeReads (n : Nat) (inner : Parser DataType) : Prop where
  type : ∀ (t : DataType) (c : Cursor) (rest : List Kind) (m : Nat), t.InRange →
    c.At (t.tokens ++ rest) m → TypeEnds rest →
    Gives (t.depth ≤ n) (t.hasRow = false) inner c t rest m
  quoted : ∀ (c : Cursor) (x : Ident) (rest : List Kind) (m : Nat), x.delimited = true →
    c.At (.ident x :: rest) m → ∃ e, inner c = .error e

theorem rowField_reads (h : TypeReads n inner) {f : RowField} (hf : f.InRange) :
    ReadsItem (rowField inner) RowField.tokens (fun _ => []) (fun f => f.depth ≤ n) False
      (fun rest => Kind.next rest = .symbol .rightParen) f := by
  intro c m rest _ hc hr
  obtain ⟨name, t⟩ := f
  simp only [RowField.InRange] at hf
  have he : TypeEnds rest := by
    rcases hr with hr | hr <;> simp [TypeEnds, hr]
  refine .of_not id fun hd => ?_
  simp only [RowField.depth] at hd
  unfold rowField
  cases name with
  | none =>
    obtain ⟨c₁, h₁, hc₁⟩ := (h.type t c rest m hf.2 hc he).1 hd
    have hl : lastType inner c = .ok (t, c₁) := by
      unfold lastType
      rw [bind_ok h₁, bind_ok (peek_apply hc₁)]
      rcases hr with hr | hr <;> rw [hr] <;> rfl
    exact ⟨c₁, by rw [bind_ok (attempt_ok hl)]; rfl, hc₁⟩
  | some name =>
    obtain ⟨e, he'⟩ := h.quoted c (.quoted name) _ m rfl hc
    have hl : lastType inner c = .error e := bind_error he'
    obtain ⟨c₁, h₁, hc₁⟩ := (h.type t c.advance rest m hf.2 hc.advance he).1 hd
    refine ⟨c₁, ?_, hc₁⟩
    rw [bind_ok (attempt_error hl)]
    simp only
    rw [bind_ok (ident_apply hc), bind_ok h₁]
    rfl

theorem commaList_rowField_gives (h : TypeReads n inner) {fs : List RowField} (hne : fs ≠ [])
    (hf : ∀ f ∈ fs, f.InRange)
    (hc : c.At (Kind.commas (fs.map RowField.tokens) ++ .symbol .rightParen :: rest) m) :
    Gives (∀ f ∈ fs, f.depth ≤ n) False (commaList (rowField inner)) c fs
      (.symbol .rightParen :: rest) m := by
  have hnone : fs.flatMap (fun _ => ([] : List Node)) = [] := by simp
  have hfs := commaList_gives (m := m) hne (fun f hf' => rowField_reads h (hf f hf')) rfl (by simp)
    (by rw [hnone]; exact ready_nil) hc
  rwa [hnone] at hfs

theorem TypeReads.deepen (h : TypeReads n inner) : TypeReads (n + 1) (dataType inner) := by
  refine ⟨?_, fun c x rest m hx hc => dataType_quoted hx hc⟩
  intro t c rest m ht hc hr
  cases t with
  | unknown =>
    refine .ok (by simp [DataType.depth]) ?_ hc.advance
    rw [dataType_word (by cbv) hc, typeNamed]
    rfl
  | scalar s =>
    obtain ⟨c₁, h₁, hc₁⟩ : ∃ c', dataType inner c = .ok (.scalar s, c') ∧ c'.At rest m :=
      scalar_apply ht hc hr
    exact .ok (by simp [DataType.depth]) h₁ hc₁
  | array t =>
    have hc : c.At (.word "ARRAY" :: (Kind.parens t.tokens ++ rest)) m := hc
    have hlt : eat (.symbol .lt) c.advance = .ok (false, c.advance) :=
      eat_of_ne hc.advance (by simp [Kind.parens])
    refine .of_eq (dataType_word (by cbv) hc) ?_
    rw [typeNamed, arrayType, eatSymbol]
    refine .step hlt ?_
    have hp := parens_gives hc.advance fun c' hc' =>
      h.type t c' (.symbol .rightParen :: rest) m ht hc' (by simp [TypeEnds])
    refine (hp.imp ?_ ?_).last fun c' hc' => ⟨c', rfl, hc'⟩
    · simp [DataType.depth]
    · simp [DataType.hasRow]
  | map k v =>
    have hc : c.At (.word "MAP" ::
        (Kind.parens (k.tokens ++ .symbol .comma :: v.tokens) ++ rest)) m := hc
    simp only [DataType.InRange] at ht
    refine .of_eq (dataType_word (by cbv) hc) ?_
    rw [typeNamed, mapType]
    have hp := parens_gives (F := k.depth ≤ n ∧ v.depth ≤ n)
      (P := (DataType.map k v).hasRow = false) (a := DataType.map k v) (k := m) hc.advance
      (p := do
        let key ← inner
        expectSymbol .comma
        let value ← inner
        return .map key value) ?_
    · exact hp.congr (by simp [DataType.depth])
    intro c' hc'
    rw [List.append_assoc, List.cons_append] at hc'
    have hk := h.type k c' _ m ht.1 hc' (by simp [TypeEnds])
    refine hk.seq (by simp +contextual [DataType.hasRow])
      fun c₁ hc₁ => .step (expectSymbol_of_eq hc₁) ?_
    have hv := h.type v _ _ m ht.2 hc₁.advance (by simp [TypeEnds])
    refine (hv.imp Iff.rfl ?_).last fun c₂ hc₂ => ⟨c₂, rfl, hc₂⟩
    simp [DataType.hasRow]
  | row fs =>
    have hc : c.At (.word "ROW" ::
        (Kind.parens (Kind.commas (RowField.tokenLists fs)) ++ rest)) m := hc
    simp only [DataType.InRange, RowField.allInRange_iff] at ht
    refine .of_eq (dataType_word (by cbv) hc) ?_
    rw [typeNamed, rowType]
    rw [RowField.tokenLists_eq] at hc
    have hp := parens_gives hc.advance fun c' hc' => commaList_rowField_gives h ht.1 ht.2 hc'
    refine (hp.imp ?_ ?_).last fun c' hc' => ⟨c', rfl, hc'⟩
    · simp [DataType.depth, RowField.depthAll_le]
    · simp [DataType.hasRow]

end Parser

end Sql
