import Sql.Proofs.Rounding
import Sql.Proofs.Spelling

/-! The digits that a double is written with read back as it: seventeen of them always do, so that
the search for the fewest ends with some that do. -/
namespace Sql.Double

variable {num den m : Nat} {e : Int} {x : ℚ} {c : Decimal}

/-! ### Candidates -/

def Decimal.value (c : Decimal) : ℚ := c.digits * 10 ^ c.power

theorem IsFraction.ofNat (n : Nat) : IsFraction (n, 1) n := ⟨Nat.one_pos, by simp⟩

theorem isFraction_value (c : Decimal) : IsFraction (times c.digits 1 10 c.power) c.value := by
  have hdigits : IsFraction (times c.digits 1 10 c.power) (c.digits * (10 : ℕ) ^ c.power) :=
    (IsFraction.ofNat c.digits).times (by decide)
  rwa [Nat.cast_ofNat] at hdigits

theorem isFraction_binary (m : Nat) (e : Int) : IsFraction (times m 1 2 e) (m * 2 ^ e) := by
  have hm : IsFraction (times m 1 2 e) (m * (2 : ℕ) ^ e) := (IsFraction.ofNat m).times (by decide)
  rwa [Nat.cast_ofNat] at hm

/-- The ends of the interval are compared by multiplying out. -/
theorem compare_multiplied {f g : Nat × Nat} {y : ℚ} (hf : IsFraction f x) (hg : IsFraction g y)
    (hy : 0 < y) (k : Nat) :
    (k * g.1 * f.2 ≤ f.1 * g.2 ↔ (k : ℚ) ≤ x / y) ∧ (f.1 * g.2 ≤ k * g.1 * f.2 ↔ x / y ≤ k) := by
  have hfpos : (0 : ℚ) < f.2 := Nat.cast_pos.2 hf.pos
  have hgpos : (0 : ℚ) < g.2 := Nat.cast_pos.2 hg.pos
  have hscale : (0 : ℚ) < f.2 * g.2 := mul_pos hfpos hgpos
  rw [le_div_iff₀ hy, div_le_iff₀ hy, ← Nat.cast_le (α := ℚ), ← Nat.cast_le (α := ℚ)]
  simp only [Nat.cast_mul, hf.eq, hg.eq]
  rw [← mul_le_mul_iff_left₀ hscale (b := (k : ℚ) * y), ← mul_le_mul_iff_left₀ hscale (b := x)]
  constructor
  · rw [show (k : ℚ) * (y * g.2) * f.2 = k * y * (f.2 * g.2) by ring,
      show x * f.2 * g.2 = x * (f.2 * g.2) by ring]
  · rw [show (k : ℚ) * (y * g.2) * f.2 = k * y * (f.2 * g.2) by ring,
      show x * f.2 * g.2 = x * (f.2 * g.2) by ring]

theorem readsBack_iff : readsBack m e c = true ↔ Rounds m e (4 * (c.value / 2 ^ e)) := by
  have hunit : IsFraction (times 1 1 2 (e - 2)) (2 ^ (e - 2)) := by
    simpa using isFraction_binary 1 (e - 2)
  have hquarter : c.value / 2 ^ (e - 2) = 4 * (c.value / 2 ^ e) := by
    rw [zpow_sub₀ two_ne_zero]
    field_simp
    norm_num
  have hcompare := compare_multiplied (isFraction_value c) hunit (zpow_pos two_pos _)
  rw [hquarter] at hcompare
  unfold readsBack Rounds
  generalize quarterBounds m e = bounds
  obtain ⟨low, high⟩ := bounds
  obtain ⟨hlow, hlow'⟩ := hcompare low
  obtain ⟨hhigh, hhigh'⟩ := hcompare high
  dsimp only
  by_cases hm : m % 2 = 0
  · rw [if_pos hm, Bool.and_eq_true, decide_eq_true_eq, decide_eq_true_eq, hlow, hhigh']
    constructor
    · exact fun h => .inr ⟨hm, h⟩
    · rintro (⟨h, h'⟩ | ⟨-, h⟩)
      · exact ⟨h.le, h'.le⟩
      · exact h
  · rw [if_neg hm, Bool.and_eq_true, decide_eq_true_eq, decide_eq_true_eq, ← not_le, ← not_le,
      hlow', hhigh, not_le, not_le]
    constructor
    · exact .inl
    · rintro (h | ⟨hm', -⟩)
      · exact h
      · exact absurd hm' hm

/-! ### Seventeen digits -/

theorem length_toDigits {n : Nat} (hn : 0 < n) : (Nat.toDigits 10 n).length = Nat.log 10 n + 1 := by
  obtain ⟨k, hk⟩ := Nat.exists_eq_succ_of_ne_zero
    (List.length_pos_of_ne_nil (Nat.toDigits_ne_nil (b := 10) (n := n))).ne'
  have hlt : n < 10 ^ (k + 1) :=
    (Nat.length_toDigits_le_iff (by decide) (Nat.succ_pos k)).1 hk.le
  have hle : 10 ^ k ≤ n := by
    cases k with
    | zero => exact hn
    | succ k =>
      rw [← not_lt, ← Nat.length_toDigits_le_iff (by decide) (Nat.succ_pos k), hk]
      omega
  rw [hk, Nat.log_eq_of_pow_le_of_lt_pow hle hlt]

theorem leadingPower_eq (h : IsFraction (num, den) x) (hx : 0 < x) :
    leadingPower num den = Int.log 10 x := by
  have hten : 1 < 10 := by decide
  have hbounds := h.log_bounds hx hten
  unfold leadingPower
  rw [length_toDigits (h.num_pos hx), length_toDigits h.pos]
  push_cast
  generalize hguess : (Nat.log 10 num + 1 - (Nat.log 10 den + 1) : ℤ) = guess
  have hscaled : IsFraction (times num den 10 (-guess)) (x * (10 : ℕ) ^ (-guess)) :=
    h.times (by decide)
  generalize times num den 10 (-guess) = f at *
  obtain ⟨n, d⟩ := f
  have hle : d ≤ n ↔ guess ≤ Int.log 10 x := by
    have hguess : (0 : ℚ) < (10 : ℕ) ^ guess := zpow_pos (by norm_num) guess
    rw [← Int.zpow_le_iff_le_log (by decide) hx, ← Nat.cast_le (α := ℚ), hscaled.eq, zpow_neg,
      ← div_eq_mul_inv, le_mul_iff_one_le_left hscaled.den_pos, one_le_div₀ hguess]
  simp only [hle]
  split
  · omega
  · omega

/-- What is nearer to the mantissa than a digit behind the seventeenth lies in the interval. -/
theorem rounds_of_near (hm : IsMagnitude m e) (hlow : (m : ℚ) - m / (2 * 10 ^ 16) ≤ x)
    (hhigh : x ≤ m + m / (2 * 10 ^ 16)) : Rounds m e (4 * x) := by
  have hpos : (1 : ℚ) ≤ m := by exact_mod_cast hm.pos
  have hlt : (m : ℚ) ≤ 9007199254740991 := by exact_mod_cast Nat.le_of_lt_succ hm.lt
  refine .inl ⟨?_, ?_⟩
  · have hfour : (4 : ℚ) ≤ 4 * m := by linarith
    unfold quarterBounds
    split
    · rename_i hbinade
      obtain ⟨rfl, -⟩ := hbinade
      rw [binade_eq] at *
      norm_num at *
      linarith
    · have hsome := hm.pos
      rw [Nat.cast_sub (by omega)]
      push_cast
      linarith
  · simp only [quarterBounds]
    push_cast
    linarith

theorem rounds_of_seventeen {y : ℚ} (hm : IsMagnitude m e)
    (hpower : c.power = Int.log 10 ((m : ℚ) * 2 ^ e) - 16) (hy : m * 2 ^ e / 10 ^ c.power = y)
    (hlow : (c.digits : ℚ) - 1 / 2 ≤ y) (hhigh : y ≤ (c.digits : ℚ) + 1 / 2) :
    Rounds m e (4 * (c.value / 2 ^ e)) := by
  have hunit : (0 : ℚ) < 2 ^ e := zpow_pos two_pos e
  have hplace : (0 : ℚ) < 10 ^ c.power := zpow_pos (by norm_num) _
  have hx : (0 : ℚ) < m * 2 ^ e := mul_pos (by exact_mod_cast hm.pos) hunit
  have hsize : (10 : ℚ) ^ c.power * 10 ^ 16 ≤ m * 2 ^ e := by
    have hlog := Int.zpow_log_le_self (b := 10) (by decide) hx
    rw [Nat.cast_ofNat, show Int.log 10 ((m : ℚ) * 2 ^ e) = c.power + 16 by omega,
      zpow_add₀ (by norm_num)] at hlog
    exact_mod_cast hlog
  rw [← hy, le_div_iff₀ hplace] at hlow
  rw [← hy, div_le_iff₀ hplace] at hhigh
  refine rounds_of_near hm ?_ ?_
  · rw [Decimal.value, le_div_iff₀ hunit]
    linarith
  · rw [Decimal.value, div_le_iff₀ hunit]
    linarith

theorem withDigits?_seventeen (hm : IsMagnitude m e) : ∃ c, withDigits? m e 17 = some c := by
  have hx : (0 : ℚ) < m * 2 ^ e := mul_pos (by exact_mod_cast hm.pos) (zpow_pos two_pos e)
  have hfraction := isFraction_binary m e
  unfold withDigits?
  generalize times m 1 2 e = f at *
  obtain ⟨num, den⟩ := f
  dsimp only
  rw [leadingPower_eq hfraction hx]
  have hpower : Int.log 10 ((m : ℚ) * 2 ^ e) - (17 : ℕ) + 1 =
      Int.log 10 ((m : ℚ) * 2 ^ e) - 16 := by omega
  rw [hpower]
  generalize hpower : Int.log 10 ((m : ℚ) * 2 ^ e) - 16 = power
  have hscaled : IsFraction (times num den 10 (-power)) (m * 2 ^ e * (10 : ℕ) ^ (-power)) :=
    hfraction.times (by decide)
  rw [Nat.cast_ofNat, zpow_neg, ← div_eq_mul_inv] at hscaled
  generalize times num den 10 (-power) = f at *
  obtain ⟨n, d⟩ := f
  have hpos := hscaled.den_pos
  have hquotient : (n : ℚ) = (n / d : ℕ) * d + (n % d : ℕ) := by
    exact_mod_cast (Nat.div_add_mod' n d).symm
  have heq : (n : ℚ) = m * 2 ^ e / 10 ^ power * d := hscaled.eq
  have hrem : ((n % d : ℕ) : ℚ) < d := by exact_mod_cast Nat.mod_lt n hscaled.pos
  have hrem' : (0 : ℚ) ≤ (n % d : ℕ) := Nat.cast_nonneg _
  generalize hy : (m : ℚ) * 2 ^ e / 10 ^ power = y at *
  -- The nearer of the two neighbours is tried first.
  split
  · rename_i hnear
    have hnear : 2 * ((n % d : ℕ) : ℚ) < d := by exact_mod_cast hnear
    refine ⟨_, List.find?_cons_of_pos (readsBack_iff.2 ?_)⟩
    refine rounds_of_seventeen hm hpower.symm hy ?_ ?_
    · refine le_of_mul_le_mul_right ?_ hpos
      linarith
    · refine le_of_mul_le_mul_right ?_ hpos
      linarith
  · rename_i hfar
    have hfar : (d : ℚ) ≤ 2 * ((n % d : ℕ) : ℚ) := by exact_mod_cast Nat.not_lt.1 hfar
    refine ⟨_, List.find?_cons_of_pos (readsBack_iff.2 ?_)⟩
    refine rounds_of_seventeen hm hpower.symm hy ?_ ?_
    · refine le_of_mul_le_mul_right ?_ hpos
      push_cast
      linarith
    · refine le_of_mul_le_mul_right ?_ hpos
      push_cast
      linarith

/-- The digits that are found read back as the magnitude. -/
theorem rounds_shortest (hm : IsMagnitude m e) :
    Rounds m e (4 * ((shortest m e).value / 2 ^ e)) := by
  rw [← readsBack_iff]
  unfold shortest
  cases hfound : (List.range 17).findSome? fun k => withDigits? m e (k + 1) with
  | none =>
    obtain ⟨c, hc⟩ := withDigits?_seventeen hm
    have hnone := List.findSome?_eq_none_iff.1 hfound 16 (by decide)
    rw [hc] at hnone
    cases hnone
  | some c =>
    obtain ⟨k, -, hk⟩ := List.exists_of_findSome?_eq_some hfound
    exact List.find?_some hk

end Sql.Double
