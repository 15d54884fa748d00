import Sql.Proofs.Results
import Sql.Proofs.RoundTrip

/-! Data types are read back from their text, and no others are read from any text. -/
namespace Sql

open Token (Kind)

/-- The parameters and names of the type can be written, and it is nested at most so deeply. -/
structure DataType.Within (n : Nat) (t : DataType) : Prop where
  inRange : t.InRange
  depth_le : t.depth ≤ n

theorem DataType.Within.parse_sql {t : DataType} (h : t.Within Grammar.maxDepth) :
    DataType.parse t.sql = .ok t := by
  have hprints := t.prints h.inRange
  rw [← List.append_nil t.tokens] at hprints
  have hgives := (Grammar.Reads.ofDepth Grammar.maxDepth).type.type t (.ofText t.sql) [] 0
    h.inRange (Parser.ofText_at hprints) (by simp [Parser.TypeEnds])
  exact hgives.run.1 h.depth_le

/-! ### What the parser of types can return -/

namespace Parser.Ensures

variable {K : Kind → Prop} {n : Nat} {inner : Parser DataType}

theorem typeParameter : Ensures K typeParameter fun _ => True := by
  refine peek.skip fun k => ?_
  split
  · exact ite (fun _ => here.skip fun _ => failAt) fun _ => advance.skip fun _ => .pure trivial
  · exact unexpected

theorem decimalType : Ensures K decimalType Scalar.InRange := by
  refine (check _).skip fun b => ite (fun _ => ?_) fun _ => .pure ?_
  · refine here.skip fun span => advance.skip fun _ => typeParameter.skip fun p => ?_
    refine (eat _).skip fun b => ?_
    have hscale : ∀ s, Ensures K (do
        Parser.expectSymbol .rightParen
        if p = 0 ∨ DataType.maxPrecision < p then Parser.failAt span .decimalPrecision
        else if p < s then Parser.failAt span .decimalScale
        else return .decimal p s) Scalar.InRange := by
      intro s
      refine (expectSymbol _).skip fun _ => ite (fun _ => failAt) fun hp => ?_
      refine ite (fun _ => failAt) fun hs => .pure ?_
      simp only [Scalar.InRange]
      omega
    exact ite (fun _ => typeParameter.skip hscale) fun _ => hscale 0
  · simp [Scalar.InRange, DataType.maxPrecision]

theorem typeLength : Ensures K typeLength fun n => 1 ≤ n ∧ n ≤ DataType.maxLength := by
  refine here.skip fun span => typeParameter.parens.skip fun n => ?_
  exact ite (fun _ => failAt) fun hn => .pure (by omega)

theorem timePrecision : Ensures K timePrecision fun n => n ≤ DataType.maxTimePrecision := by
  refine (check _).skip fun b => ite (fun _ => ?_) fun _ => .pure (by decide)
  refine here.skip fun span => typeParameter.parens.skip fun n => ?_
  exact ite (fun _ => failAt) fun hn => .pure (by omega)

theorem timeZone : Ensures K timeZone fun _ => True := by
  refine (check _).skip fun zoned => (checkWord _).skip fun zoneless => (peekAt 1).skip fun k => ?_
  refine ite (fun _ => ?_) fun _ => .pure trivial
  refine advance.skip fun _ => advance.skip fun _ => (eatWord _).skip fun b => ?_
  exact ite (fun _ => .pure trivial) fun _ => unexpected_bind

theorem intervalField : Ensures K intervalField fun _ => True := by
  refine peek.skip fun k => ?_
  split
  · exact advance.skip fun _ => .pure trivial
  · exact unexpected

theorem intervalType (span : Span) : Ensures K (intervalType span) Scalar.InRange := by
  refine intervalField.skip fun start => (eatWord _).skip fun b => ?_
  refine ite (fun _ => intervalField.skip fun stop => ?_) fun _ => ?_
  · split
    · exact .pure trivial
    · exact .pure trivial
    · exact failAt
  · exact unexpected_bind

theorem arrayType (h : Ensures K inner (DataType.Within n)) :
    Ensures K (arrayType inner) (DataType.Within (n + 1)) := by
  have harray : ∀ t : DataType, t.Within n → (DataType.array t).Within (n + 1) := by
    rintro t ⟨ht, hd⟩
    exact ⟨ht, Nat.succ_le_succ hd⟩
  refine (eat _).skip fun b => ite (fun _ => ?_) fun _ => ?_
  · exact h.bind fun t ht => (expectSymbol _).skip fun _ => .pure (harray t ht)
  · exact h.parens.bind fun t ht => .pure (harray t ht)

theorem mapType (h : Ensures K inner (DataType.Within n)) :
    Ensures K (mapType inner) (DataType.Within (n + 1)) := by
  refine parens (h.bind fun k hk => (expectSymbol _).skip fun _ => h.bind fun v hv => .pure ?_)
  refine ⟨⟨hk.inRange, hv.inRange⟩, ?_⟩
  simp only [DataType.depth]
  have := hk.depth_le
  have := hv.depth_le
  omega

theorem lastType (h : Ensures K inner (DataType.Within n)) :
    Ensures K (lastType inner) (DataType.Within n) := by
  refine h.bind fun t ht => peek.skip fun k => ?_
  split
  · exact .pure ht
  · exact .pure ht
  · exact unexpected

/-- A field has the name that was read, or none. -/
theorem rowField (h : Ensures Kind.Spelled inner (DataType.Within n)) :
    Ensures Kind.Spelled (rowField inner) fun f => f.InRange ∧ f.depth ≤ n := by
  refine h.lastType.attempt.bind fun r hr => ?_
  split
  · rename_i t
    have ht := hr t rfl
    exact .pure ⟨⟨nofun, ht.inRange⟩, ht.depth_le⟩
  · refine ident.bind fun x hx => h.bind fun t ht => .pure ?_
    have hname : some x.text ≠ some "" := by
      intro he
      exact Ident.Spelled.named hx (Option.some.inj he)
    exact ⟨⟨hname, ht.inRange⟩, ht.depth_le⟩

theorem rowType (h : Ensures Kind.Spelled inner (DataType.Within n)) :
    Ensures Kind.Spelled (rowType inner) (DataType.Within (n + 1)) := by
  refine h.rowField.commaList.parens.bind fun fs hfs => .pure ⟨?_, ?_⟩
  · exact ⟨hfs.1, (RowField.allInRange_iff fs).2 fun f hf => (hfs.2 f hf).1⟩
  · exact Nat.succ_le_succ ((RowField.depthAll_le fs).2 fun f hf => (hfs.2 f hf).2)

theorem scalar {p : Parser Scalar} (h : Ensures K p Scalar.InRange) :
    Ensures K (do return .scalar (← p)) (DataType.Within (n + 1)) :=
  h.bind fun s hs => .pure ⟨hs, by simp [DataType.depth]⟩

theorem temporal {make : Nat → Bool → Scalar}
    (hm : ∀ p z, p ≤ DataType.maxTimePrecision → (make p z).InRange) :
    Ensures K (do
      let precision ← Parser.timePrecision
      return .scalar (make precision (← Parser.timeZone))) (DataType.Within (n + 1)) :=
  timePrecision.bind fun p hp => timeZone.skip fun z => .pure ⟨hm p z hp, by simp [DataType.depth]⟩

theorem typeNamed (h : Ensures Kind.Spelled inner (DataType.Within n)) (span : Span)
    (word : String) :
    Ensures Kind.Spelled (typeNamed inner span word) (DataType.Within (n + 1)) := by
  have hplain : ∀ s : Scalar, s.InRange → (DataType.scalar s).Within (n + 1) :=
    fun s hs => ⟨hs, by simp [DataType.depth]⟩
  unfold Parser.typeNamed
  split
  -- seven types without parameters; the others follow in the order of the parser
  iterate 7 exact .pure (hplain _ trivial)
  · exact (eatWord _).skip fun _ => .pure (hplain _ trivial)
  · exact decimalType.scalar
  · exact decimalType.scalar
  · refine (check _).skip fun b => (typeLength.optional (b := b)).bind fun r hr => .pure ?_
    cases r with
    | none => exact hplain _ trivial
    | some n => exact hplain _ (hr n rfl)
  · refine (check _).skip fun b => (typeLength.optional (b := b)).bind fun r hr => .pure ?_
    cases r with
    | none => exact hplain _ (by simp [Scalar.InRange, DataType.maxLength])
    | some n => exact hplain _ (hr n rfl)
  iterate 3 exact .pure (hplain _ trivial)
  · exact .pure ⟨trivial, by simp [DataType.depth]⟩
  · exact temporal fun p z hp => hp
  · exact temporal fun p z hp => hp
  · exact (intervalType span).scalar
  · exact h.arrayType
  · exact h.mapType
  · exact h.rowType
  · exact failAt

theorem dataType (h : Ensures Kind.Spelled inner (DataType.Within n)) :
    Ensures Kind.Spelled (dataType inner) (DataType.Within (n + 1)) := by
  refine here.skip fun span => peek.skip fun k => ?_
  split
  · exact ite (fun _ => unexpected) fun _ => advance.skip fun _ => h.typeNamed span _
  · exact unexpected

/-- Each level of the grammar reads the types of its depth only. -/
theorem ofDepth_type (n : Nat) :
    Ensures Kind.Spelled (Grammar.ofDepth n).type (DataType.Within n) := by
  induction n with
  | zero => exact here.skip fun _ => failAt
  | succ n ih => exact ih.dataType

end Parser.Ensures

theorem DataType.within_of_parse {text : String} {t : DataType}
    (h : DataType.parse text = .ok t) : t.Within Grammar.maxDepth :=
  (Parser.Ensures.ofDepth_type Grammar.maxDepth).run (Cursor.ofText_spelled text) h

/-- A type that can be written is read back from its text, and whatever is read from any text can
be written. -/
theorem DataType.parse_image (t : DataType) :
    (t.InRange ∧ t.depth ≤ Grammar.maxDepth → DataType.parse t.sql = .ok t) ∧
      ∀ text, DataType.parse text = .ok t → t.InRange ∧ t.depth ≤ Grammar.maxDepth := by
  constructor
  · rintro ⟨hrange, hdepth⟩
    exact DataType.Within.parse_sql ⟨hrange, hdepth⟩
  · intro text h
    obtain ⟨hrange, hdepth⟩ := DataType.within_of_parse h
    exact ⟨hrange, hdepth⟩

/-- A quote in a name and the largest parameters there are. -/
def DataType.sampleRow : DataType :=
  .row [⟨some "a\x22b", .decimal 38 38⟩,
    ⟨none, .map (.varchar (some 65536)) (.array (.scalar (.timestamp 12 true)))⟩]

theorem DataType.parse_image_sampleRow :
    DataType.parse sampleRow.sql = .ok sampleRow ∧
      sampleRow.InRange ∧ sampleRow.depth ≤ Grammar.maxDepth := by
  have hrange : sampleRow.InRange := by
    simp [sampleRow, DataType.InRange, RowField.AllInRange, RowField.InRange, DataType.decimal,
      DataType.varchar, Scalar.InRange, maxPrecision, maxLength, maxTimePrecision]
  have hdepth : sampleRow.depth ≤ Grammar.maxDepth := by decide
  have hparse := (parse_image sampleRow).1 ⟨hrange, hdepth⟩
  exact ⟨hparse, (parse_image sampleRow).2 _ hparse⟩

end Sql
