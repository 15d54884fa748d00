import Mathlib
import Sql.Double.Shortest
import Sql.Proofs.Magnitudes

/-! Reading rounds to the nearest double: what lies in the rounding interval of a magnitude is read
as that magnitude. -/
namespace Sql.Double

/-! ### Fractions -/

/-- The numerator and the denominator of a number. -/
structure IsFraction (f : Nat × Nat) (x : ℚ) : Prop where
  pos : 0 < f.2
  eq : (f.1 : ℚ) = x * f.2

namespace IsFraction

variable {num den base k : Nat} {x : ℚ} {power : Int}

theorem den_pos (h : IsFraction (num, den) x) : (0 : ℚ) < den := Nat.cast_pos.2 h.pos

theorem num_pos (h : IsFraction (num, den) x) (hx : 0 < x) : 0 < num := by
  rw [← Nat.cast_pos (α := ℚ), h.eq]
  exact mul_pos hx h.den_pos

theorem le_iff (h : IsFraction (num, den) x) : k ≤ num / den ↔ (k : ℚ) ≤ x := by
  rw [Nat.le_div_iff_mul_le h.pos, ← Nat.cast_le (α := ℚ), Nat.cast_mul, h.eq,
    mul_le_mul_iff_left₀ h.den_pos]

theorem times (h : IsFraction (num, den) x) (hbase : 0 < base) :
    IsFraction (times num den base power) (x * (base : ℚ) ^ power) := by
  have hne : (base : ℚ) ≠ 0 := Nat.cast_ne_zero.2 hbase.ne'
  unfold Double.times
  split
  · rename_i hpower
    obtain ⟨k, rfl⟩ := Int.eq_ofNat_of_zero_le hpower
    refine ⟨h.pos, ?_⟩
    simp only [Int.toNat_natCast, Nat.pow_eq, Nat.cast_mul, Nat.cast_pow, h.eq, zpow_natCast]
    ring
  · rename_i hpower
    obtain ⟨k, hk⟩ := Int.eq_ofNat_of_zero_le (Int.neg_nonneg_of_nonpos (Int.not_le.1 hpower).le)
    obtain rfl : power = -k := by omega
    refine ⟨Nat.mul_pos h.pos (Nat.pow_pos hbase), ?_⟩
    simp only [neg_neg, Int.toNat_natCast, Nat.pow_eq, Nat.cast_mul, Nat.cast_pow, h.eq, zpow_neg,
      zpow_natCast]
    field_simp

theorem scaleBy (h : IsFraction (num, den) x) :
    IsFraction (scaleBy num den power) (x / 2 ^ power) := by
  unfold Double.scaleBy
  split
  · rename_i hpower
    obtain ⟨k, rfl⟩ := Int.eq_ofNat_of_zero_le hpower
    refine ⟨Nat.mul_pos h.pos (Nat.pow_pos two_pos), ?_⟩
    simp only [Int.toNat_natCast, Nat.pow_eq, Nat.cast_mul, Nat.cast_pow, h.eq, zpow_natCast]
    field_simp
    norm_num
  · rename_i hpower
    obtain ⟨k, hk⟩ := Int.eq_ofNat_of_zero_le (Int.neg_nonneg_of_nonpos (Int.not_le.1 hpower).le)
    obtain rfl : power = -k := by omega
    refine ⟨h.pos, ?_⟩
    simp only [neg_neg, Int.toNat_natCast, Nat.pow_eq, Nat.cast_mul, Nat.cast_pow, h.eq, zpow_neg,
      zpow_natCast]
    field_simp
    norm_num

/-- The sizes of numerator and denominator leave two possible sizes of the number. -/
theorem log_bounds (h : IsFraction (num, den) x) (hx : 0 < x) (hbase : 1 < base) :
    (Nat.log base num : ℤ) - Nat.log base den - 1 ≤ Int.log base x ∧
      Int.log base x ≤ Nat.log base num - Nat.log base den := by
  have hb : (0 : ℚ) < base := Nat.cast_pos.2 (Nat.zero_lt_of_lt hbase)
  have hpow (i : ℤ) : (0 : ℚ) < (base : ℚ) ^ i := zpow_pos hb i
  have hnum : ((base : ℚ) ^ (Nat.log base num : ℤ) ≤ num) := by
    rw [zpow_natCast]
    exact_mod_cast Nat.pow_log_le_self base (h.num_pos hx).ne'
  have hnum' : (num : ℚ) < (base : ℚ) ^ (Nat.log base num + 1 : ℤ) := by
    exact_mod_cast Nat.lt_pow_succ_log_self hbase num
  have hden : ((base : ℚ) ^ (Nat.log base den : ℤ) ≤ den) := by
    rw [zpow_natCast]
    exact_mod_cast Nat.pow_log_le_self base h.pos.ne'
  have hden' : (den : ℚ) < (base : ℚ) ^ (Nat.log base den + 1 : ℤ) := by
    exact_mod_cast Nat.lt_pow_succ_log_self hbase den
  generalize (Nat.log base num : ℤ) = i at *
  generalize (Nat.log base den : ℤ) = j at *
  rw [← Int.zpow_le_iff_le_log hbase hx, ← Int.lt_add_one_iff, ← Int.lt_zpow_iff_log_lt hbase hx]
  constructor
  · refine le_of_mul_le_mul_right ?_ h.den_pos
    calc (base : ℚ) ^ (i - j - 1) * den
        ≤ (base : ℚ) ^ (i - j - 1) * (base : ℚ) ^ (j + 1) :=
          mul_le_mul_of_nonneg_left hden'.le (hpow _).le
      _ = (base : ℚ) ^ i := by rw [← zpow_add₀ hb.ne']; congr 1; ring
      _ ≤ x * den := hnum.trans h.eq.le
  · refine lt_of_mul_lt_mul_right ?_ h.den_pos.le
    calc x * den < (base : ℚ) ^ (i + 1) := h.eq.ge.trans_lt hnum'
      _ = (base : ℚ) ^ (i - j + 1) * (base : ℚ) ^ j := by rw [← zpow_add₀ hb.ne']; congr 1; ring
      _ ≤ (base : ℚ) ^ (i - j + 1) * den := mul_le_mul_of_nonneg_left hden (hpow _).le

end IsFraction

/-! ### Rounding to a whole number -/

variable {num den m : Nat} {e : Int} {x : ℚ}

/-- The number is rounded to `m`, a half to the even one. -/
def RoundsTo (x : ℚ) (m : Nat) : Prop :=
  (m < x + 1 / 2 ∧ x < m + 1 / 2) ∨ m % 2 = 0 ∧ m ≤ x + 1 / 2 ∧ x ≤ m + 1 / 2

theorem roundHalfEven_eq (h : IsFraction (num, den) x) (hm : RoundsTo x m) :
    roundHalfEven num den = m := by
  have hpos : (0 : ℚ) < den := h.den_pos
  have heq : (num : ℚ) = x * den := h.eq
  -- The same about twice the numerator and the denominator.
  have hwhole : (2 * (m * den) < 2 * num + den ∧ 2 * num < 2 * (m * den) + den) ∨
      m % 2 = 0 ∧ 2 * (m * den) ≤ 2 * num + den ∧ 2 * num ≤ 2 * (m * den) + den := by
    refine hm.imp ?_ (And.imp_right ?_)
    · rintro ⟨hlow, hhigh⟩
      have hlow := mul_lt_mul_of_pos_right hlow hpos
      have hhigh := mul_lt_mul_of_pos_right hhigh hpos
      constructor
      · qify
        linarith
      · qify
        linarith
    · rintro ⟨hlow, hhigh⟩
      have hlow := mul_le_mul_of_nonneg_right hlow hpos.le
      have hhigh := mul_le_mul_of_nonneg_right hhigh hpos.le
      constructor
      · qify
        linarith
      · qify
        linarith
  have hden : 0 < den := h.pos
  clear h hm hpos heq
  unfold roundHalfEven
  have hdiv : num / den * den + num % den = num := Nat.div_add_mod' num den
  have hrem : num % den < den := Nat.mod_lt num hden
  dsimp only
  generalize num / den = q at *
  generalize num % den = r at *
  subst hdiv
  have hcase : m = q ∨ m = q + 1 := by
    rcases Nat.lt_trichotomy m q with hlt | heq | hgt
    · have hmul : (m + 1) * den ≤ q * den := Nat.mul_le_mul_right den hlt
      rw [Nat.add_mul] at hmul
      omega
    · exact .inl heq
    · refine .inr (Nat.le_antisymm ?_ hgt)
      by_contra hne
      have hmul : (q + 2) * den ≤ m * den := Nat.mul_le_mul_right den (by omega)
      rw [Nat.add_mul] at hmul
      omega
  rcases hcase with rfl | rfl
  · split
    · rfl
    split
    · omega
    · omega
  · rw [Nat.add_mul] at hwhole
    split
    · omega
    split
    · rfl
    · omega

/-! ### The nearest code -/

/-- The exponent of the last binary place that a double near the number has. -/
def lastPlace (x : ℚ) : Int := max (Int.log 2 x - 52) (-1074)

theorem le_scaled_iff (hx : 0 < x) (e k : Int) :
    (2 : ℚ) ^ k ≤ x / 2 ^ e ↔ e + k ≤ Int.log 2 x := by
  rw [le_div_iff₀ (zpow_pos two_pos e), ← zpow_add₀ two_ne_zero, add_comm k e]
  exact_mod_cast Int.zpow_le_iff_le_log (b := 2) one_lt_two hx

theorem nearestCode_eq (h : IsFraction (num, den) x) (hx : 0 < x) :
    ∃ n d, IsFraction (n, d) (x / 2 ^ lastPlace x) ∧ nearestCode num den =
      min ((lastPlace x + 1074).toNat * binade + roundHalfEven n d) infiniteCode := by
  unfold nearestCode
  rw [if_neg (h.num_pos hx).ne']
  simp only [Nat.log2_eq_log_two]
  generalize hguess : max ((Nat.log 2 num : ℤ) - Nat.log 2 den - 53) (-1074) = guess
  have hscaled : IsFraction (scaleBy num den guess) (x / 2 ^ guess) := h.scaleBy
  generalize scaleBy num den guess = f at *
  obtain ⟨n, d⟩ := f
  have hlarge : 2 * binade ≤ n / d ↔ guess + 53 ≤ Int.log 2 x := by
    rw [hscaled.le_iff, ← le_scaled_iff hx]
    norm_num [binade]
  have hplace : (if 2 * binade ≤ n / d then guess + 1 else guess) = lastPlace x := by
    have hbounds := h.log_bounds hx one_lt_two
    simp only [hlarge, lastPlace]
    split
    · omega
    · omega
  dsimp only
  rw [hplace]
  exact ⟨_, _, h.scaleBy, rfl⟩

/-! ### Magnitudes and their rounding intervals -/

/-- The mantissa and the exponent of a finite double that is not zero. -/
structure IsMagnitude (m : Nat) (e : Int) : Prop where
  pos : 0 < m
  lt : m < 2 * binade
  low : -1074 ≤ e
  high : e ≤ 971
  /-- Only the smallest exponent leaves the first place of the mantissa empty. -/
  full : -1074 < e → binade ≤ m

/-- Does the number, in quarters of the last place, lie in the rounding interval? -/
def Rounds (m : Nat) (e : Int) (x : ℚ) : Prop :=
  ((quarterBounds m e).1 < x ∧ x < (quarterBounds m e).2) ∨
    m % 2 = 0 ∧ (quarterBounds m e).1 ≤ x ∧ x ≤ (quarterBounds m e).2

theorem Rounds.bounds (h : Rounds m e x) :
    ((quarterBounds m e).1 : ℚ) ≤ x ∧ x ≤ (quarterBounds m e).2 := by
  rcases h with ⟨hlow, hhigh⟩ | ⟨-, hlow, hhigh⟩
  · exact ⟨hlow.le, hhigh.le⟩
  · exact ⟨hlow, hhigh⟩

theorem le_quarterBounds (m : Nat) (e : Int) : 4 * (m : ℚ) ≤ (quarterBounds m e).1 + 2 := by
  have hle : 4 * m ≤ (quarterBounds m e).1 + 2 := by
    unfold quarterBounds
    split <;> omega
  exact_mod_cast hle

theorem Rounds.roundsTo (h : Rounds m e (4 * x)) : RoundsTo x m := by
  have hm := le_quarterBounds m e
  have hhigh : ((quarterBounds m e).2 : ℚ) = 4 * m + 2 := by
    simp [quarterBounds]
  rcases h with ⟨hlt, hlt'⟩ | ⟨heven, hle, hle'⟩
  · exact .inl ⟨by linarith, by linarith⟩
  · exact .inr ⟨heven, by linarith, by linarith⟩

theorem binade_eq : binade = 4503599627370496 := rfl

theorem code_le {k : Nat} (hk : k ≤ 2045) (hm : m ≤ 2 * binade) :
    k * binade + m ≤ infiniteCode := by
  unfold infiniteCode
  rw [binade_eq] at *
  omega

/-- The number has its last place where the magnitude has it, or one place further below a power of
two. -/
theorem lastPlace_of_rounds (hm : IsMagnitude m e) (hx : Rounds m e (4 * (x / 2 ^ e))) :
    0 < x ∧ (lastPlace x = e ∨
      lastPlace x = e - 1 ∧ m = binade ∧ -1074 < e ∧ RoundsTo (2 * (x / 2 ^ e)) (2 * binade)) := by
  obtain ⟨hlow, hhigh⟩ := hx.bounds
  have hhigh : x / 2 ^ e ≤ m + 1 / 2 := by
    simp [quarterBounds] at hhigh
    linarith
  have hbounds := le_quarterBounds m e
  have hsome : (1 : ℚ) ≤ m := by exact_mod_cast hm.pos
  have hpos : 0 < x := by
    have hscaled : 0 < x / 2 ^ e := by linarith
    exact (div_pos_iff_of_pos_right (zpow_pos two_pos e)).1 hscaled
  refine ⟨hpos, ?_⟩
  have hlt : Int.log 2 x < e + 53 := by
    rw [← not_le, ← le_scaled_iff hpos]
    have hm' : (m : ℚ) + 1 ≤ 2 * binade := by exact_mod_cast hm.lt
    rw [binade_eq] at hm'
    norm_num at hm' ⊢
    linarith
  have hlow' := hm.low
  unfold lastPlace
  rcases eq_or_lt_of_le hm.low with rfl | he
  · exact .inl (by omega)
  have hfull := hm.full he
  by_cases hlarge : (2 : ℚ) ^ (52 : ℤ) ≤ x / 2 ^ e
  · rw [le_scaled_iff hpos] at hlarge
    exact .inl (by omega)
  have hlog : ¬ e + 52 ≤ Int.log 2 x := fun hlog => hlarge ((le_scaled_iff hpos e 52).2 hlog)
  -- Only the lowest mantissa is left, and numbers just below a power of two.
  norm_num at hlarge
  obtain rfl : m = binade := by
    refine le_antisymm ?_ hfull
    by_contra hmore
    have hnext : (4503599627370497 : ℚ) ≤ m := by exact_mod_cast Nat.lt_of_not_le hmore
    linarith
  have hnear : (4 * binade : ℚ) - 1 ≤ 4 * (x / 2 ^ e) := by
    simp only [quarterBounds, he, and_self, if_true] at hlow
    rw [Nat.cast_sub (by decide)] at hlow
    exact_mod_cast hlow
  rw [binade_eq] at hnear
  norm_num at hnear
  have hhalf : e + 51 ≤ Int.log 2 x := by
    rw [← le_scaled_iff hpos]
    norm_num
    linarith
  refine .inr ⟨by omega, rfl, he, .inr ⟨rfl, ?_, ?_⟩⟩
  · rw [binade_eq]
    norm_num
    linarith
  · rw [binade_eq]
    norm_num
    linarith

/-- What lies in the rounding interval of a magnitude is read as it. -/
theorem nearestCode_of_rounds (hm : IsMagnitude m e) (h : IsFraction (num, den) x)
    (hx : Rounds m e (4 * (x / 2 ^ e))) :
    nearestCode num den = (e + 1074).toNat * binade + m := by
  have hlow := hm.low
  have hhigh := hm.high
  obtain ⟨hpos, hplace⟩ := lastPlace_of_rounds hm hx
  obtain ⟨n, d, hf, heq⟩ := nearestCode_eq h hpos
  rcases hplace with hplace | ⟨hplace, rfl, he, hto⟩
  · rw [hplace] at hf heq
    rw [heq, roundHalfEven_eq hf hx.roundsTo]
    exact Nat.min_eq_left (code_le (by omega) hm.lt.le)
  · have hdouble : x / 2 ^ (e - 1) = 2 * (x / 2 ^ e) := by
      rw [zpow_sub_one₀ two_ne_zero]
      field_simp
    obtain ⟨k, rfl⟩ : ∃ k : Nat, e = k - 1073 := ⟨(e + 1073).toNat, by omega⟩
    rw [hplace, hdouble] at hf
    have hk : ((k : Int) - 1073 - 1 + 1074).toNat = k := by omega
    have hk' : ((k : Int) - 1073 + 1074).toNat = k + 1 := by omega
    rw [heq, hplace, roundHalfEven_eq hf hto, hk, hk',
      Nat.min_eq_left (code_le (by omega) le_rfl)]
    ring

end Sql.Double
