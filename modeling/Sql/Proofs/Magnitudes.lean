import Sql.Double.Reading

/-! Numbers that are read as doubles. -/
namespace Sql

theorem Text.toLower_of_isDigit {c : Char} (h : c.isDigit = true) : c.toLower = c := by
  unfold Char.toLower
  simp [Char.isDigit] at h
  grind

namespace Double

/-! ### Numbers without a sign -/

theorem nearestCode_le (num den : Nat) : nearestCode num den ≤ infiniteCode := by
  unfold nearestCode
  split
  · exact Nat.zero_le _
  · exact Nat.min_le_right ..

theorem decimalCode_le (digits count : Nat) (power : Int) :
    decimalCode digits count power ≤ infiniteCode := by
  unfold decimalCode
  split
  · exact Nat.zero_le _
  split
  · exact Nat.le_refl _
  split
  · exact nearestCode_le ..
  · exact nearestCode_le ..

theorem magnitude?_le {cs : List Char} {code : Nat} (h : magnitude? cs = some code) :
    code ≤ infiniteCode := by
  unfold magnitude? at h
  dsimp only at h
  rw [Option.ite_none_left_eq_some] at h
  obtain ⟨power, -, rfl⟩ := Option.map_eq_some_iff.1 h.2
  exact decimalCode_le ..

theorem isNaN_ofNat {negative : Bool} {code : Nat} (h : code ≤ infiniteCode) :
    (⟨negative, .ofNat 63 code⟩ : Double).isNaN = false := by
  have hcode : (BitVec.ofNat 63 code).toNat = code := by
    rw [BitVec.toNat_ofNat]
    exact Nat.mod_eq_of_lt (Nat.lt_of_le_of_lt h (by decide))
  refine decide_eq_false ?_
  rw [hcode]
  exact Nat.not_lt.2 h

variable {c : Char}

theorem takeSign_of_digit (hc : c.isDigit = true ∨ c = '.') (cs : List Char) :
    takeSign (c :: cs) = (false, c :: cs) := by
  rw [takeSign]
  · intro cs' heq
    rw [(List.cons.inj heq).1] at hc
    exact absurd hc (by decide)
  · intro cs' heq
    rw [(List.cons.inj heq).1] at hc
    exact absurd hc (by decide)

/-- A text that starts with a digit or a point is not the name of a special number. -/
theorem ofText?_of_digit (hc : c.isDigit = true ∨ c = '.') (cs : List Char) :
    ofText? (String.ofList (c :: cs)) =
      (magnitude? (c :: cs)).map fun code => ⟨false, .ofNat 63 code⟩ := by
  have hlower : c.toLower = c := by
    rcases hc with hc | rfl
    · exact Text.toLower_of_isDigit hc
    · rfl
  have hname : ∀ name : String, name.toList.head? = some 'i' ∨ name.toList.head? = some 'n' →
      String.ofList (c :: cs.map Char.toLower) ≠ name := by
    rintro name hn rfl
    rw [String.toList_ofList, List.head?_cons, Option.some_inj, Option.some_inj] at hn
    rcases hn with rfl | rfl
    · exact absurd hc (by decide)
    · exact absurd hc (by decide)
  unfold ofText?
  rw [String.toList_ofList, takeSign_of_digit hc]
  dsimp only
  rw [List.map_cons, hlower]
  split
  · exact absurd ‹_› (hname _ (.inl rfl))
  · exact absurd ‹_› (hname _ (.inl rfl))
  · exact absurd ‹_› (hname _ (.inr rfl))
  · rfl

theorem ofText?_number (hc : c.isDigit = true ∨ c = '.') {cs : List Char} {d : Double}
    (h : ofText? (String.ofList (c :: cs)) = some d) : d.negative = false ∧ d.isNaN = false := by
  rw [ofText?_of_digit hc] at h
  obtain ⟨code, hcode, rfl⟩ := Option.map_eq_some_iff.1 h
  exact ⟨rfl, isNaN_ofNat (magnitude?_le hcode)⟩

end Double

end Sql
