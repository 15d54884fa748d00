import Sql.Proofs.Spelling

/-! How doubles are spelled: digits, a point and digits behind it if there are any, and an
exponent. -/
namespace Sql.Double

open Token (AllDigits IsExponent Spelling)

theorem allDigits_zero : AllDigits ['0'] := ⟨by simp, by simp⟩

theorem isExponent_signedDecimal (power : Int) :
    IsExponent ('E' :: (Text.signedDecimal power).toList) := by
  unfold Text.signedDecimal
  split
  · refine ⟨['-'], Nat.toDigits 10 power.natAbs, ?_, .inr rfl, Token.allDigits_toDigits _⟩
    rw [String.toList_append, Text.toList_decimal]
    rfl
  · refine ⟨[], Nat.toDigits 10 power.natAbs, ?_, .inl rfl, Token.allDigits_toDigits _⟩
    rw [Text.toList_decimal]
    rfl

/-- Scientific notation has a digit before the point and an exponent. -/
theorem scientific_parts (value : Decimal) : ∃ ds fs es, value.scientific.toList = ds ++ fs ++ es ∧
    AllDigits ds ∧ (fs = [] ∨ ∃ f, fs = '.' :: f ∧ AllDigits f) ∧ IsExponent es := by
  unfold Decimal.scientific
  extract_lets digits power kept mantissa
  have hkept : ∀ c ∈ kept, c.isDigit = true := by
    intro c hc
    have hmem : c ∈ digits.reverse := (List.dropWhile_sublist _).mem (List.mem_reverse.1 hc)
    exact (Token.allDigits_toDigits value.digits).2 c (List.mem_reverse.1 hmem)
  have hexp := isExponent_signedDecimal power
  have htext : (String.ofList mantissa ++ "E" ++ Text.signedDecimal power).toList =
      mantissa ++ 'E' :: (Text.signedDecimal power).toList := by
    simp
  rw [htext]
  match hk : kept with
  | [] => exact ⟨['0'], [], _, by simp [mantissa, hk], allDigits_zero, .inl rfl, hexp⟩
  | [c] =>
    refine ⟨[c], [], _, by simp [mantissa, hk], ⟨by simp, ?_⟩, .inl rfl, hexp⟩
    exact hkept
  | c :: d :: cs =>
    refine ⟨[c], '.' :: d :: cs, _, by simp [mantissa, hk], ⟨by simp, ?_⟩,
      .inr ⟨d :: cs, rfl, by simp, ?_⟩, hexp⟩
    · simpa using hkept c (by simp)
    · exact fun e he => hkept e (List.mem_cons_of_mem c he)

/-- A finite number without a sign is spelled as it is printed, if it is read back so. -/
theorem spelling {d : Double} (hs : d.negative = false) (hn : d.isNaN = false)
    (hi : d.isInfinite = false) (hread : ofText? d.text = some d) :
    Spelling d.text.toList (.double d) := by
  obtain ⟨ds, fs, es, ht, hds, hfs, hes⟩ : ∃ ds fs es, d.text.toList = ds ++ fs ++ es ∧
      AllDigits ds ∧ (fs = [] ∨ ∃ f, fs = '.' :: f ∧ AllDigits f) ∧ IsExponent es := by
    simp only [text, hs, hn, hi, Bool.false_eq_true, if_false, String.empty_append]
    split
    · exact ⟨['0'], [], ['E', '0'], rfl, allDigits_zero, .inl rfl, [], ['0'], rfl,
        .inl rfl, allDigits_zero⟩
    · exact scientific_parts _
  rw [ht]
  refine .double hds hfs hes ?_
  rwa [← ht, String.ofList_toList]

end Sql.Double
