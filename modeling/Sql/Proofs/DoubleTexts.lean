import Sql.Proofs.Doubles
import Sql.Proofs.ShortestDigits

/-! The text of a finite double is read as that double. -/
namespace Sql

open Token (AllDigits)

/-! ### Digits -/

namespace Text

variable {c : Char} {ds : List Char}

theorem digitsValue_concat (ds : List Char) (c : Char) :
    digitsValue (ds ++ [c]) = 10 * digitsValue ds + (c.toNat - '0'.toNat) := by
  simp [digitsValue]

theorem digitsValue_lt (h : ∀ d ∈ ds, d.isDigit = true) : digitsValue ds < 10 ^ ds.length := by
  induction ds using List.reverseRecOn with
  | nil => decide
  | append_singleton ds c ih =>
    obtain ⟨hds, hc⟩ := List.forall_mem_append.1 h
    have hvalue := ih hds
    have hdigit : c.toNat - '0'.toNat ≤ 9 := by
      have hc := hc c List.mem_cons_self
      simp only [Char.isDigit, Bool.and_eq_true, decide_eq_true_eq] at hc
      have hle : c.toNat ≤ 57 := hc.2
      exact Nat.sub_le_sub_right hle 48
    rw [digitsValue_concat, List.length_append, List.length_singleton, Nat.pow_succ]
    omega

/-- The digits without the zeros at their end. -/
def trimZeros (ds : List Char) : List Char := (ds.reverse.dropWhile (· == '0')).reverse

theorem length_trimZeros_le (ds : List Char) : (trimZeros ds).length ≤ ds.length := by
  calc (trimZeros ds).length = (ds.reverse.dropWhile (· == '0')).length := List.length_reverse
    _ ≤ ds.reverse.length := (List.dropWhile_sublist _).length_le
    _ = ds.length := List.length_reverse

theorem digitsValue_trimZeros (ds : List Char) :
    digitsValue ds = digitsValue (trimZeros ds) * 10 ^ (ds.length - (trimZeros ds).length) := by
  induction ds using List.reverseRecOn with
  | nil => rfl
  | append_singleton ds c ih =>
    have hle := length_trimZeros_le ds
    unfold trimZeros at *
    rw [List.reverse_concat, List.dropWhile_cons]
    split
    · rename_i hzero
      obtain rfl := beq_iff_eq.1 hzero
      rw [digitsValue_concat, ih, List.length_append, List.length_singleton, Nat.succ_sub hle,
        Nat.pow_succ]
      simp only [Nat.sub_self]
      ring
    · rw [← List.reverse_concat, List.reverse_reverse, Nat.sub_self, Nat.pow_zero, Nat.mul_one]

theorem isDigit_trimZeros (h : ∀ d ∈ ds, d.isDigit = true) : ∀ d ∈ trimZeros ds, d.isDigit = true :=
  fun d hd => h d (List.mem_reverse.1 ((List.dropWhile_sublist _).mem (List.mem_reverse.1 hd)))

end Text

namespace Double

/-! ### The parts of a text -/

theorem exponentPart?_signedDecimal (power : Int) :
    exponentPart? ('E' :: (Text.signedDecimal power).toList) = some power := by
  obtain ⟨hne, hdigits⟩ := Token.allDigits_toDigits power.natAbs
  have hpart : ∀ negative cs, takeSign cs = (negative, Nat.toDigits 10 power.natAbs) →
      exponentPart? ('E' :: cs) =
        some (if negative then -(power.natAbs : Int) else power.natAbs) := by
    intro negative cs hcs
    have hmark : 'E'.toLower = 'e' := rfl
    rw [exponentPart?, if_pos hmark, hcs]
    dsimp only
    rw [List.isEmpty_eq_false_iff.2 hne, List.all_eq_true.2 hdigits, Text.digitsValue_toDigits]
    rfl
  unfold Text.signedDecimal
  split
  · rename_i hneg
    rw [String.toList_append, Text.toList_decimal]
    refine (hpart true _ rfl).trans ?_
    simp only [if_true, Option.some_inj]
    omega
  · rename_i hpos
    rw [Text.toList_decimal]
    obtain ⟨c, cs, hcs⟩ := List.exists_cons_of_ne_nil hne
    refine (hpart false _ ?_).trans ?_
    · rw [hcs]
      exact takeSign_of_digit (.inl (hdigits c (by simp [hcs]))) cs
    · simp only [Bool.false_eq_true, if_false, Option.some_inj]
      omega

section

variable {ws fs es : List Char} {power : Int} (hws : ∀ d ∈ ws, d.isDigit = true)
  (hpart : exponentPart? ('E' :: es) = some power)

include hws hpart

theorem magnitude?_whole (hne : ws ≠ []) : magnitude? (ws ++ 'E' :: es) =
    some (decimalCode (Text.digitsValue ws) ws.length power) := by
  have hwhole : Text.takeDigits (ws ++ 'E' :: es) = (ws, 'E' :: es) :=
    Token.takeDigits_append hws (by rintro d ⟨⟩; rfl)
  unfold magnitude?
  rw [hwhole]
  dsimp only
  split
  · rename_i heq
    cases heq
  · rw [List.append_nil, if_neg (by simpa using hne), hpart]
    simp

theorem magnitude?_fraction (hfs : ∀ d ∈ fs, d.isDigit = true) (hne : ws ≠ []) :
    magnitude? (ws ++ '.' :: (fs ++ 'E' :: es)) =
      some (decimalCode (Text.digitsValue (ws ++ fs)) (ws ++ fs).length (power - fs.length)) := by
  have hwhole : Text.takeDigits (ws ++ '.' :: (fs ++ 'E' :: es)) = (ws, '.' :: (fs ++ 'E' :: es)) :=
    Token.takeDigits_append hws (by rintro d ⟨⟩; rfl)
  have hfraction : Text.takeDigits (fs ++ 'E' :: es) = (fs, 'E' :: es) :=
    Token.takeDigits_append hfs (by rintro d ⟨⟩; rfl)
  unfold magnitude?
  rw [hwhole]
  dsimp only
  split
  · rename_i heq
    cases heq
    rw [hfraction, if_neg (by simp [hne]), hpart]
    rfl
  · rename_i hpoint
    exact absurd rfl (hpoint _)

end

variable {value : Decimal} {c : Char} {cs : List Char}

/-- The last digit that is kept stands where the first of the zeros behind it has been left out. -/
theorem magnitude?_scientific (hkept : Text.trimZeros (Nat.toDigits 10 value.digits) = c :: cs) :
    ∃ rest, value.scientific.toList = c :: rest ∧ magnitude? (c :: rest) =
      some (decimalCode (Text.digitsValue (c :: cs)) (c :: cs).length
        (value.power + ((Nat.toDigits 10 value.digits).length - (c :: cs).length : Nat))) := by
  have hall : ∀ d ∈ c :: cs, d.isDigit = true := by
    rw [← hkept]
    exact Text.isDigit_trimZeros (Token.allDigits_toDigits _).2
  obtain ⟨hc, hcs⟩ := List.forall_mem_cons.1 hall
  have hlength : (c :: cs).length ≤ (Nat.toDigits 10 value.digits).length := by
    rw [← hkept]
    exact Text.length_trimZeros_le _
  unfold Text.trimZeros at hkept
  unfold Decimal.scientific
  dsimp only
  rw [hkept]
  generalize Nat.toDigits 10 value.digits = digits at *
  have hpart := exponentPart?_signedDecimal (value.power + (digits.length - 1 : Nat))
  generalize (Text.signedDecimal (value.power + (digits.length - 1 : Nat))) = exponent at *
  have hfirst : ∀ d ∈ [c], d.isDigit = true := by simpa using hc
  cases cs with
  | nil =>
    refine ⟨'E' :: exponent.toList, by simp, ?_⟩
    exact magnitude?_whole hfirst hpart (List.cons_ne_nil c [])
  | cons d ds =>
    refine ⟨'.' :: (d :: ds ++ 'E' :: exponent.toList), by simp, ?_⟩
    refine (magnitude?_fraction hfirst hpart hcs (List.cons_ne_nil c [])).trans ?_
    simp only [List.length_cons] at hlength
    simp only [List.cons_append, List.nil_append, List.length_cons]
    congr 2
    omega

/-! ### The value of a text -/

variable {m n count : Nat} {e power : Int} {d : Double}

theorem two_pow_lt_ten_pow : (2 : ℚ) ^ (1075 : ℤ) < 10 ^ (331 : ℤ) := by
  have hnat : 2 ^ 1075 < 10 ^ 331 := by decide +kernel
  exact_mod_cast hnat

theorem bounds_of_rounds {x : ℚ} (hm : IsMagnitude m e) (hx : Rounds m e (4 * (x / 2 ^ e))) :
    (10 : ℚ) ^ (-331 : ℤ) < x ∧ x < 10 ^ (331 : ℤ) := by
  have hunit : (0 : ℚ) < 2 ^ e := zpow_pos two_pos e
  obtain ⟨hlow, hhigh⟩ := hx.bounds
  have hpos : (1 : ℚ) ≤ m := by exact_mod_cast hm.pos
  have hlt : (m : ℚ) + 1 ≤ 9007199254740992 := by exact_mod_cast hm.lt
  have hbounds := le_quarterBounds m e
  have hhalf : 1 / 2 ≤ x / 2 ^ e := by linarith
  have hsize : x / 2 ^ e ≤ 9007199254740992 := by
    simp only [quarterBounds] at hhigh
    push_cast at hhigh
    linarith
  rw [le_div_iff₀ hunit] at hhalf
  rw [div_le_iff₀ hunit] at hsize
  have hleast := hm.low
  have hmost := hm.high
  constructor
  · calc (10 : ℚ) ^ (-331 : ℤ) < 2 ^ (-1075 : ℤ) := by
          rw [zpow_neg, zpow_neg]
          exact inv_strictAnti₀ (by positivity) two_pow_lt_ten_pow
      _ ≤ 2 ^ (e - 1) := zpow_le_zpow_right₀ one_le_two (by omega)
      _ ≤ x := by
          rw [zpow_sub_one₀ two_ne_zero]
          linarith
  · calc x ≤ 2 ^ (e + 53) := by
          rw [zpow_add₀ two_ne_zero]
          norm_num
          linarith
      _ ≤ 2 ^ (1075 : ℤ) := zpow_le_zpow_right₀ one_le_two (by omega)
      _ < 10 ^ (331 : ℤ) := two_pow_lt_ten_pow

/-- Where the power of ten is not computed, nothing would be read as a finite number but zero. -/
theorem decimalCode_of_rounds (hm : IsMagnitude m e) (hn : n < 10 ^ count)
    (hx : Rounds m e (4 * ((Decimal.mk n power).value / 2 ^ e))) :
    decimalCode n count power = (e + 1074).toNat * binade + m := by
  obtain ⟨hleast, hmost⟩ := bounds_of_rounds hm hx
  have hten : (0 : ℚ) < 10 ^ power := zpow_pos (by norm_num) power
  have hfraction := isFraction_value ⟨n, power⟩
  have hpos : 0 < n := by
    by_contra hzero
    obtain rfl := Nat.eq_zero_of_not_pos hzero
    rw [Decimal.value, Nat.cast_zero, zero_mul] at hleast
    exact absurd hleast (not_lt.2 (zpow_nonneg (by norm_num) _))
  unfold decimalCode
  rw [if_neg, if_neg]
  · unfold times at hfraction
    dsimp only at hfraction
    split
    · rename_i hpower
      rw [if_pos hpower] at hfraction
      exact nearestCode_of_rounds hm hfraction hx
    · rename_i hpower
      rw [if_neg hpower, Nat.one_mul] at hfraction
      exact nearestCode_of_rounds hm hfraction hx
  · intro hlarge
    have hpower : (10 : ℚ) ^ (331 : ℤ) ≤ 10 ^ power := zpow_le_zpow_right₀ (by norm_num) (by omega)
    have hsome : (1 : ℚ) ≤ n := by exact_mod_cast hpos
    have hle : (10 : ℚ) ^ power ≤ n * 10 ^ power := le_mul_of_one_le_left hten.le hsome
    exact absurd (hpower.trans hle) (not_le.2 hmost)
  · rintro (rfl | hsmall)
    · exact absurd hpos (lt_irrefl 0)
    have hpower : (10 : ℚ) ^ (count + power) ≤ 10 ^ (-331 : ℤ) :=
      zpow_le_zpow_right₀ (by norm_num) (by omega)
    have hlt : (n : ℚ) ≤ 10 ^ count := by exact_mod_cast hn.le
    have hle : n * (10 : ℚ) ^ power ≤ 10 ^ (count + power) := by
      rw [zpow_add₀ (by norm_num), zpow_natCast]
      exact mul_le_mul_of_nonneg_right hlt hten.le
    exact absurd (hle.trans hpower) (not_le.2 hleast)

theorem isMagnitude (hfinite : d.code.toNat < infiniteCode) (hsome : 0 < d.code.toNat) :
    IsMagnitude d.mantissa d.exponent ∧
      (d.exponent + 1074).toNat * binade + d.mantissa = d.code.toNat := by
  have hmax : Nat.max (d.code.toNat / binade) 1 = max (d.code.toNat / binade) 1 := rfl
  unfold mantissa exponent
  unfold infiniteCode at hfinite
  rw [hmax]
  generalize d.code.toNat = code at *
  rw [binade_eq] at *
  split
  · exact ⟨⟨by omega, by rw [binade_eq]; omega, by omega, by omega, by omega⟩, by omega⟩
  · refine ⟨⟨by omega, by rw [binade_eq]; omega, by omega, by omega, fun _ => ?_⟩, by omega⟩
    rw [binade_eq]
    omega

/-- Digits that lie in the rounding interval of a magnitude are read as it. -/
theorem ofText?_scientific {value : Decimal} (hm : IsMagnitude m e)
    (hx : Rounds m e (4 * (value.value / 2 ^ e))) : ofText? value.scientific =
      some ⟨false, .ofNat 63 ((e + 1074).toNat * binade + m)⟩ := by
  have hdigits := Text.digitsValue_trimZeros (Nat.toDigits 10 value.digits)
  have hall := Text.isDigit_trimZeros (Token.allDigits_toDigits value.digits).2
  rw [Text.digitsValue_toDigits] at hdigits
  cases hkept : Text.trimZeros (Nat.toDigits 10 value.digits) with
  | nil =>
    have hzero : value.digits = 0 := by rw [hdigits, hkept]; exact Nat.zero_mul _
    obtain ⟨hpos, -⟩ := bounds_of_rounds hm hx
    rw [Decimal.value, hzero, Nat.cast_zero, zero_mul] at hpos
    exact absurd hpos (not_lt.2 (zpow_nonneg (by norm_num) _))
  | cons c cs =>
    obtain ⟨rest, htext, hmagnitude⟩ := magnitude?_scientific hkept
    rw [hkept] at hdigits hall
    generalize (Nat.toDigits 10 value.digits).length - (c :: cs).length = zeros at *
    have hvalue : value.value =
        (Decimal.mk (Text.digitsValue (c :: cs)) (value.power + zeros)).value := by
      rw [Decimal.value, Decimal.value, hdigits, zpow_add₀ (by norm_num), zpow_natCast]
      push_cast
      ring
    rw [hvalue] at hx
    rw [← String.ofList_toList (s := value.scientific), htext,
      ofText?_of_digit (.inl (hall c List.mem_cons_self)), hmagnitude,
      decimalCode_of_rounds hm (Text.digitsValue_lt hall) hx]
    rfl

/-- A finite double without a sign is the one that its text stands for. -/
theorem ofText?_text (hsign : d.negative = false) (hnan : d.isNaN = false)
    (hfinite : d.isInfinite = false) : ofText? d.text = some d := by
  have hlt : d.code.toNat < infiniteCode := by
    simp only [isNaN, isInfinite, decide_eq_false_iff_not, beq_eq_false_iff_ne] at hnan hfinite
    omega
  obtain ⟨negative, code⟩ := d
  obtain rfl : negative = false := hsign
  unfold text
  rw [hnan, hfinite]
  cases hzero : (⟨false, code⟩ : Double).isZero with
  | true =>
    obtain rfl : code = 0 := BitVec.eq_of_toNat_eq (beq_iff_eq.1 hzero)
    cbv
  | false =>
    have hsome : 0 < code.toNat := Nat.pos_of_ne_zero (beq_eq_false_iff_ne.1 hzero)
    obtain ⟨hm, hcode⟩ := isMagnitude hlt hsome
    have hread := ofText?_scientific hm (rounds_shortest hm)
    rw [hcode, BitVec.ofNat_toNat, BitVec.setWidth_eq] at hread
    exact hread

end Double

end Sql
