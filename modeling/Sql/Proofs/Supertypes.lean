import Sql.DataType.Supertype

/-! The common type of two types is their join in the order of widening, where there is one. -/
namespace Sql

/-- A decimal has no more digits behind its point than in all, and not too many of them. -/
def Scalar.Sized : Scalar → Prop
  | .decimal p s => s ≤ p ∧ p ≤ DataType.maxPrecision
  | _ => True

/-- Values of the first type can be turned into values of the second. The digits before the point
of a decimal count only as far as its scale leaves room for them. -/
inductive Scalar.Fits : Scalar → Scalar → Prop where
  | refl (t : Scalar) : Fits t t
  | integral {t u : Scalar} {m n : Nat} (ht : t.integralDigits? = some m)
      (hu : u.integralDigits? = some n) (h : m ≤ n) : Fits t u
  | whole {t : Scalar} {m p s : Nat} (ht : t.integralDigits? = some m)
      (h : min m (DataType.maxPrecision - s) ≤ p - s) : Fits t (.decimal p s)
  | decimal {p s p' s' : Nat} (hs : s ≤ s')
      (hp : min (p - s) (DataType.maxPrecision - s') ≤ p' - s') :
      Fits (.decimal p s) (.decimal p' s')
  | real {t : Scalar} (h : (t.isIntegral || t.isDecimal) = true) : Fits t .real
  | double {t : Scalar} (h : t.isNumeric = true) : Fits t .double
  | varchar {m n : Nat} (h : m ≤ n) : Fits (.varchar (some m)) (.varchar (some n))
  | unbounded {m : Option Nat} : Fits (.varchar m) (.varchar none)
  | padded {m n : Nat} (h : m ≤ n) : Fits (.varchar (some m)) (.char n)
  | char {m n : Nat} (h : m ≤ n) : Fits (.char m) (.char n)
  | unpadded {m : Nat} : Fits (.char m) (.varchar none)
  | date {p : Nat} {z : Bool} : Fits .date (.timestamp p z)
  | timestamp {p p' : Nat} {z z' : Bool} (hp : p ≤ p') (hz : (z || z') = z') :
      Fits (.timestamp p z) (.timestamp p' z')
  | time {p p' : Nat} {z z' : Bool} (hp : p ≤ p') (hz : (z || z') = z') :
      Fits (.time p z) (.time p' z')

namespace Scalar

variable {t u v w : Scalar}

/-- The rules of `widen?`, one by one. -/
inductive Widens : Scalar → Scalar → Scalar → Prop where
  | decimal {p s p' s' : Nat} : Widens (.decimal p s) (.decimal p' s') (decimalJoin p s p' s')
  | double {u : Scalar} (h : u.isNumeric = true) : Widens .double u .double
  | real {u : Scalar} (h : (u.isIntegral || u.isDecimal) = true) : Widens .real u .real
  | varchar {m n : Nat} :
      Widens (.varchar (some m)) (.varchar (some n)) (.varchar (some (max m n)))
  | unboundedLeft {n : Option Nat} : Widens (.varchar none) (.varchar n) (.varchar none)
  | unboundedRight {m : Option Nat} : Widens (.varchar m) (.varchar none) (.varchar none)
  | char {m n : Nat} : Widens (.char m) (.char n) (.char (max m n))
  | padded {m n : Nat} : Widens (.char m) (.varchar (some n)) (.char (max m n))
  | unpadded {m : Nat} : Widens (.char m) (.varchar none) (.varchar none)
  | timestamp {p p' : Nat} {z z' : Bool} :
      Widens (.timestamp p z) (.timestamp p' z') (.timestamp (max p p') (z || z'))
  | date {p : Nat} {z : Bool} : Widens (.timestamp p z) .date (.timestamp p z)
  | time {p p' : Nat} {z z' : Bool} :
      Widens (.time p z) (.time p' z') (.time (max p p') (z || z'))
  | whole {t : Scalar} {m p s : Nat} (h : t.integralDigits? = some m) :
      Widens t (.decimal p s) (decimalJoin m 0 p s)
  | left {t u : Scalar} {m n : Nat} (ht : t.integralDigits? = some m)
      (hu : u.integralDigits? = some n) (h : n ≤ m) : Widens t u t
  | right {t u : Scalar} {m n : Nat} (ht : t.integralDigits? = some m)
      (hu : u.integralDigits? = some n) (h : ¬ n ≤ m) : Widens t u u

theorem widens_of_widen? (h : widen? t u = some w) : Widens t u w := by
  unfold widen? at h
  split at h
  · cases h
    exact .decimal
  · split at h <;> cases h
    exact .double ‹_›
  · split at h <;> cases h
    exact .real ‹_›
  · rename_i m n
    cases m <;> cases n <;> cases h
    · exact .unboundedLeft
    · exact .unboundedLeft
    · exact .unboundedRight
    · exact .varchar
  · cases h
    exact .char
  · cases h
    exact .padded
  · cases h
    exact .unpadded
  · cases h
    exact .timestamp
  · cases h
    exact .date
  · cases h
    exact .time
  · obtain ⟨m, hm, rfl⟩ := Option.map_eq_some_iff.1 h
    exact .whole hm
  · obtain ⟨m, hm, h⟩ := Option.bind_eq_some_iff.1 h
    obtain ⟨n, hn, h⟩ := Option.bind_eq_some_iff.1 h
    by_cases hmn : n ≤ m
    · rw [if_pos hmn] at h
      cases h
      exact .left hm hn hmn
    · rw [if_neg hmn] at h
      cases h
      exact .right hm hn hmn

theorem integralDigits?_inj {n : Nat} (ht : t.integralDigits? = some n)
    (hu : u.integralDigits? = some n) : t = u := by
  cases t <;> cases ht <;> cases u <;> cases hu <;> rfl

attribute [grind →] integralDigits?_inj
attribute [grind intro] Fits
attribute [grind] Sized integralDigits? isIntegral isDecimal isFloating isNumeric decimalJoin
  DataType.maxPrecision

theorem isIntegral_of_integralDigits? {n : Nat} (h : t.integralDigits? = some n) :
    t.isIntegral = true := by
  cases t <;> cases h <;> rfl

theorem Fits.of_whole {m p s : Nat} (ht : t.integralDigits? = some m)
    (h : t.Fits (.decimal p s)) : min m (DataType.maxPrecision - s) ≤ p - s := by
  cases h with
  | refl | decimal => cases ht
  | integral _ hu => cases hu
  | whole ht' hp =>
    cases ht.symm.trans ht'
    exact hp

theorem Fits.of_decimal {p s : Nat} (h : Fits (.decimal p s) v) :
    (∃ p' s', v = .decimal p' s' ∧ s ≤ s' ∧
      min (p - s) (DataType.maxPrecision - s') ≤ p' - s') ∨ v = .real ∨ v = .double := by
  cases h with
  | refl => exact .inl ⟨p, s, rfl, by omega, by omega⟩
  | decimal hs hp => exact .inl ⟨_, _, rfl, hs, hp⟩
  | real => exact .inr (.inl rfl)
  | double => exact .inr (.inr rfl)
  | integral ht | whole ht => cases ht

theorem Fits.of_varchar {m : Nat} (h : Fits (.varchar (some m)) v) :
    (∃ n, v = .varchar (some n) ∧ m ≤ n) ∨ v = .varchar none ∨ ∃ n, v = .char n ∧ m ≤ n := by
  cases h with
  | refl => exact .inl ⟨m, rfl, Nat.le_refl m⟩
  | varchar h => exact .inl ⟨_, rfl, h⟩
  | unbounded => exact .inr (.inl rfl)
  | padded h => exact .inr (.inr ⟨_, rfl, h⟩)
  | integral ht | whole ht | real ht | double ht => cases ht

theorem Fits.of_unbounded (h : Fits (.varchar none) v) : v = .varchar none := by
  cases h with
  | refl | unbounded => rfl
  | integral ht | whole ht | real ht | double ht => cases ht

theorem Fits.of_char {m : Nat} (h : Fits (.char m) v) :
    (∃ n, v = .char n ∧ m ≤ n) ∨ v = .varchar none := by
  cases h with
  | refl => exact .inl ⟨m, rfl, Nat.le_refl m⟩
  | char h => exact .inl ⟨_, rfl, h⟩
  | unpadded => exact .inr rfl
  | integral ht | whole ht | real ht | double ht => cases ht

theorem Fits.of_timestamp {p : Nat} {z : Bool} (h : Fits (.timestamp p z) v) :
    ∃ p' z', v = .timestamp p' z' ∧ p ≤ p' ∧ (z || z') = z' := by
  cases h with
  | refl => exact ⟨p, z, rfl, Nat.le_refl p, Bool.or_self z⟩
  | timestamp hp hz => exact ⟨_, _, rfl, hp, hz⟩
  | integral ht | whole ht | real ht | double ht => cases ht

theorem Fits.of_time {p : Nat} {z : Bool} (h : Fits (.time p z) v) :
    ∃ p' z', v = .time p' z' ∧ p ≤ p' ∧ (z || z') = z' := by
  cases h with
  | refl => exact ⟨p, z, rfl, Nat.le_refl p, Bool.or_self z⟩
  | time hp hz => exact ⟨_, _, rfl, hp, hz⟩
  | integral ht | whole ht | real ht | double ht => cases ht

theorem Fits.trans (h : t.Fits u) (h' : u.Fits v) : t.Fits v := by
  have hor {x y z : Bool} (h : (x || y) = y) (h' : (y || z) = z) : (x || z) = z := by
    rw [← h', ← Bool.or_assoc, h]
  cases h with
  | refl => exact h'
  | integral ht hu hmn =>
    cases h' with
    | refl => exact .integral ht hu hmn
    | integral hu' hv hnk =>
      cases hu.symm.trans hu'
      exact .integral ht hv (Nat.le_trans hmn hnk)
    | whole hu' hp =>
      cases hu.symm.trans hu'
      exact .whole ht (by omega)
    | real => exact .real (by simp [isIntegral_of_integralDigits? ht])
    | double => exact .double (by simp [isNumeric, isIntegral_of_integralDigits? ht])
    | _ => cases hu
  | whole ht hp =>
    rcases h'.of_decimal with ⟨p', s', rfl, hs', hp'⟩ | rfl | rfl
    · exact .whole ht (by omega)
    · exact .real (by simp [isIntegral_of_integralDigits? ht])
    · exact .double (by simp [isNumeric, isIntegral_of_integralDigits? ht])
  | decimal hs hp =>
    rcases h'.of_decimal with ⟨p', s', rfl, hs', hp'⟩ | rfl | rfl
    · exact .decimal (Nat.le_trans hs hs') (by omega)
    · exact .real rfl
    · exact .double rfl
  | real ht =>
    cases h' with
    | refl => exact .real ht
    | double => exact .double (by grind)
    | integral hu | whole hu | real hu => cases hu
  | double ht =>
    cases h' with
    | refl | double => exact .double ht
    | integral hu | whole hu | real hu => cases hu
  | varchar hmn =>
    rcases h'.of_varchar with ⟨k, rfl, hnk⟩ | rfl | ⟨k, rfl, hnk⟩
    · exact .varchar (Nat.le_trans hmn hnk)
    · exact .unbounded
    · exact .padded (Nat.le_trans hmn hnk)
  | padded hmn =>
    rcases h'.of_char with ⟨k, rfl, hnk⟩ | rfl
    · exact .padded (Nat.le_trans hmn hnk)
    · exact .unbounded
  | char hmn =>
    rcases h'.of_char with ⟨k, rfl, hnk⟩ | rfl
    · exact .char (Nat.le_trans hmn hnk)
    · exact .unpadded
  | unbounded => exact h'.of_unbounded ▸ .unbounded
  | unpadded => exact h'.of_unbounded ▸ .unpadded
  | date =>
    obtain ⟨p', z', rfl, -, -⟩ := h'.of_timestamp
    exact .date
  | timestamp hp hz =>
    obtain ⟨p', z', rfl, hp', hz'⟩ := h'.of_timestamp
    exact .timestamp (Nat.le_trans hp hp') (hor hz hz')
  | time hp hz =>
    obtain ⟨p', z', rfl, hp', hz'⟩ := h'.of_time
    exact .time (Nat.le_trans hp hp') (hor hz hz')

theorem Fits.antisymm (ht : t.Sized) (hu : u.Sized) (h : t.Fits u) (h' : u.Fits t) : t = u := by
  cases h <;> cases h' <;> grind

theorem Widens.bounds (h : Widens t u w) (ht : t.Sized) (hu : u.Sized) :
    t.Fits w ∧ u.Fits w := by
  cases h <;> grind

theorem Widens.sized (h : Widens t u w) (ht : t.Sized) (hu : u.Sized) : w.Sized := by
  cases h <;> grind

theorem Widens.least (hw : Widens t u w) (h : t.Fits v) (h' : u.Fits v) : w.Fits v := by
  cases hw with
  | double | real | unboundedLeft | date | left => exact h
  | unboundedRight | unpadded | right => exact h'
  -- Two decimals that fit a third leave room for all their digits there.
  | decimal =>
    rcases h.of_decimal with ⟨a, b, rfl, hs, hp⟩ | rfl | rfl
    · rcases h'.of_decimal with ⟨_, _, ⟨⟩, hs', hp'⟩ | ⟨⟨⟩⟩ | ⟨⟨⟩⟩
      exact .decimal (by omega) (by omega)
    · exact .real rfl
    · exact .double rfl
  | whole hm =>
    rcases h'.of_decimal with ⟨a, b, rfl, hs, hp⟩ | rfl | rfl
    · have := h.of_whole hm
      exact .decimal (by omega) (by omega)
    · exact .real rfl
    · exact .double rfl
  | varchar =>
    rcases h.of_varchar with ⟨k, rfl, hk⟩ | rfl | ⟨k, rfl, hk⟩
    · rcases h'.of_varchar with ⟨_, ⟨⟩, hk'⟩ | ⟨⟨⟩⟩ | ⟨_, ⟨⟩, -⟩
      exact .varchar (Nat.max_le.2 ⟨hk, hk'⟩)
    · exact .unbounded
    · rcases h'.of_varchar with ⟨_, ⟨⟩, -⟩ | ⟨⟨⟩⟩ | ⟨_, ⟨⟩, hk'⟩
      exact .padded (Nat.max_le.2 ⟨hk, hk'⟩)
  | char =>
    rcases h.of_char with ⟨k, rfl, hk⟩ | rfl
    · rcases h'.of_char with ⟨_, ⟨⟩, hk'⟩ | ⟨⟨⟩⟩
      exact .char (Nat.max_le.2 ⟨hk, hk'⟩)
    · exact .unpadded
  | padded =>
    rcases h.of_char with ⟨k, rfl, hk⟩ | rfl
    · rcases h'.of_varchar with ⟨_, ⟨⟩, -⟩ | ⟨⟨⟩⟩ | ⟨_, ⟨⟩, hk'⟩
      exact .char (Nat.max_le.2 ⟨hk, hk'⟩)
    · exact .unpadded
  | timestamp =>
    obtain ⟨p, z, rfl, hp, hz⟩ := h.of_timestamp
    obtain ⟨_, _, ⟨⟩, hp', hz'⟩ := h'.of_timestamp
    exact .timestamp (Nat.max_le.2 ⟨hp, hp'⟩) (by rw [Bool.or_assoc, hz', hz])
  | time =>
    obtain ⟨p, z, rfl, hp, hz⟩ := h.of_time
    obtain ⟨_, _, ⟨⟩, hp', hz'⟩ := h'.of_time
    exact .time (Nat.max_le.2 ⟨hp, hp'⟩) (by rw [Bool.or_assoc, hz', hz])

theorem Fits.isNumeric (h : t.Fits v) : t.isNumeric = v.isNumeric := by
  cases h <;> grind

theorem isString_of_isNumeric (h : t.isNumeric = true) : t.isString = false := by
  cases t <;> cases h <;> rfl

theorem Fits.isString (h : t.Fits v) : t.isString = v.isString := by
  by_cases hn : v.isNumeric = true
  · rw [isString_of_isNumeric hn, isString_of_isNumeric (h.isNumeric.trans hn)]
  · cases h <;> grind [Scalar.isString]

theorem supertype?_isSome_of_isNumeric (ht : t.isNumeric = true) (hu : u.isNumeric = true) :
    (t.supertype? u).isSome = true := by
  by_cases h : t = u
  · simp [supertype?, h]
  · rw [supertype?, if_neg h]
    cases t <;> cases ht <;> cases u <;> cases hu <;> first | rfl | exact absurd rfl h

theorem supertype?_isSome_of_isString (ht : t.isString = true) (hu : u.isString = true) :
    (t.supertype? u).isSome = true := by
  by_cases h : t = u
  · simp [supertype?, h]
  · rw [supertype?, if_neg h]
    cases t with
    | varchar m => cases m <;> cases u <;> cases hu <;> rfl
    | char m =>
      cases u with
      | varchar n => cases n <;> rfl
      | char n => rfl
      | _ => cases hu
    | _ => cases ht

theorem supertype?_isSome_of_widen?
    (h : (widen? t u).isSome = true ∨ (widen? u t).isSome = true) :
    (t.supertype? u).isSome = true := by
  unfold supertype?
  split
  · rfl
  · rwa [Option.isSome_or, Bool.or_eq_true]

theorem Fits.to_timestamp {p : Nat} {z : Bool} (h : t.Fits (.timestamp p z)) :
    t = .date ∨ ∃ p' z', t = .timestamp p' z' := by
  cases h with
  | refl => exact .inr ⟨p, z, rfl⟩
  | integral _ hu => cases hu
  | date => exact .inl rfl
  | timestamp => exact .inr ⟨_, _, rfl⟩

theorem Fits.to_time {p : Nat} {z : Bool} (h : t.Fits (.time p z)) : ∃ p' z', t = .time p' z' := by
  cases h with
  | refl => exact ⟨p, z, rfl⟩
  | integral _ hu => cases hu
  | time => exact ⟨_, _, rfl⟩

theorem Fits.supertype?_isSome (h : t.Fits v) (h' : u.Fits v) :
    (t.supertype? u).isSome = true := by
  by_cases hn : v.isNumeric = true
  · exact supertype?_isSome_of_isNumeric (h.isNumeric.trans hn) (h'.isNumeric.trans hn)
  by_cases hs : v.isString = true
  · exact supertype?_isSome_of_isString (h.isString.trans hs) (h'.isString.trans hs)
  cases v with
  | timestamp p z =>
    rcases h.to_timestamp with rfl | ⟨_, _, rfl⟩ <;> rcases h'.to_timestamp with rfl | ⟨_, _, rfl⟩
    · rfl
    · exact supertype?_isSome_of_widen? (.inr rfl)
    · exact supertype?_isSome_of_widen? (.inl rfl)
    · exact supertype?_isSome_of_widen? (.inl rfl)
  | time p z =>
    obtain ⟨_, _, rfl⟩ := h.to_time
    obtain ⟨_, _, rfl⟩ := h'.to_time
    exact supertype?_isSome_of_widen? (.inl rfl)
  | boolean | varbinary | json | date | yearToMonth | dayToSecond =>
    -- Such a type is fitted by itself alone.
    cases h with
    | refl =>
      cases h' with
      | refl => rfl
      | integral _ hu => cases hu
    | integral _ hu => cases hu
  | varchar | char => exact absurd rfl hs
  | _ => exact absurd rfl hn

theorem supertype?_cases (h : t.supertype? u = some w) :
    (t = u ∧ w = u) ∨ Widens t u w ∨ Widens u t w := by
  unfold supertype? at h
  split at h
  · rename_i htu
    cases h
    exact .inl ⟨htu, htu⟩
  · rcases Option.or_eq_some_iff.1 h with h | ⟨-, h⟩
    · exact .inr (.inl (widens_of_widen? h))
    · exact .inr (.inr (widens_of_widen? h))

theorem supertype?_sized (h : t.supertype? u = some w) (ht : t.Sized) (hu : u.Sized) :
    w.Sized := by
  rcases supertype?_cases h with ⟨-, rfl⟩ | h | h
  · exact hu
  · exact h.sized ht hu
  · exact h.sized hu ht

/-- The common type of two scalars is the least that both fit. -/
theorem supertype?_fits_iff (ht : t.Sized) (hu : u.Sized) :
    (∃ w, t.supertype? u = some w ∧ w.Fits v) ↔ t.Fits v ∧ u.Fits v := by
  constructor
  · rintro ⟨w, hw, hv⟩
    rcases supertype?_cases hw with ⟨rfl, rfl⟩ | h | h
    · exact ⟨hv, hv⟩
    · exact ⟨(h.bounds ht hu).1.trans hv, (h.bounds ht hu).2.trans hv⟩
    · exact ⟨(h.bounds hu ht).2.trans hv, (h.bounds hu ht).1.trans hv⟩
  · rintro ⟨h, h'⟩
    obtain ⟨w, hw⟩ := Option.isSome_iff_exists.1 (h.supertype?_isSome h')
    refine ⟨w, hw, ?_⟩
    rcases supertype?_cases hw with ⟨-, rfl⟩ | hw | hw
    · exact h'
    · exact hw.least h h'
    · exact hw.least h' h

end Scalar

mutual

/-- Every scalar in the type has the property. -/
def DataType.Every (p : Scalar → Prop) : DataType → Prop
  | .unknown => True
  | .scalar t => p t
  | .array t => t.Every p
  | .map k v => k.Every p ∧ v.Every p
  | .row fields => RowField.EveryAll p fields
termination_by structural t => t

def RowField.Every (p : Scalar → Prop) : RowField → Prop
  | ⟨_, t⟩ => t.Every p
termination_by structural f => f

def RowField.EveryAll (p : Scalar → Prop) : List RowField → Prop
  | [] => True
  | f :: fs => f.Every p ∧ RowField.EveryAll p fs
termination_by structural fs => fs

end

/-- All decimals in the type are as they should be. -/
def DataType.Sized (t : DataType) : Prop := t.Every Scalar.Sized

mutual

/-- Values of the first type can be turned into values of the second; a name may be lost. -/
def DataType.Fits : DataType → DataType → Prop
  | .unknown, _ => True
  | .scalar t, .scalar u => t.Fits u
  | .array t, .array u => t.Fits u
  | .map k v, .map k' v' => k.Fits k' ∧ v.Fits v'
  | .row fs, .row gs => RowField.AllFit fs gs
  | _, _ => False
termination_by structural t => t

def RowField.Fits : RowField → RowField → Prop
  | ⟨name, t⟩, ⟨name', u⟩ => (name' = name ∨ name' = none) ∧ t.Fits u
termination_by structural f => f

def RowField.AllFit : List RowField → List RowField → Prop
  | [], [] => True
  | f :: fs, g :: gs => f.Fits g ∧ RowField.AllFit fs gs
  | _, _ => False
termination_by structural fs => fs

end

mutual

theorem DataType.Fits.refl : (t : DataType) → t.Fits t
  | .unknown => trivial
  | .scalar t => Scalar.Fits.refl t
  | .array t => DataType.Fits.refl t
  | .map k v => ⟨DataType.Fits.refl k, DataType.Fits.refl v⟩
  | .row fs => RowField.AllFit.refl fs
termination_by structural t => t

theorem RowField.Fits.refl : (f : RowField) → f.Fits f
  | ⟨_, t⟩ => ⟨.inl rfl, DataType.Fits.refl t⟩
termination_by structural f => f

theorem RowField.AllFit.refl : (fs : List RowField) → RowField.AllFit fs fs
  | [] => trivial
  | f :: fs => ⟨RowField.Fits.refl f, RowField.AllFit.refl fs⟩
termination_by structural fs => fs

end

mutual

theorem DataType.Fits.antisymm :
    (t u : DataType) → t.Sized → u.Sized → t.Fits u → u.Fits t → t = u
  | .unknown, u, _, _, _, h' => by cases u <;> first | rfl | exact h'.elim
  | .scalar t, u, ht, hu, h, h' => by
    cases u with
    | scalar u => exact congrArg _ (Scalar.Fits.antisymm ht hu h h')
    | _ => exact h.elim
  | .array t, u, ht, hu, h, h' => by
    cases u with
    | array u => exact congrArg _ (DataType.Fits.antisymm t u ht hu h h')
    | _ => exact h.elim
  | .map k v, u, ht, hu, h, h' => by
    cases u with
    | map k' v' =>
      rw [DataType.Fits.antisymm k k' ht.1 hu.1 h.1 h'.1,
        DataType.Fits.antisymm v v' ht.2 hu.2 h.2 h'.2]
    | _ => exact h.elim
  | .row fs, u, ht, hu, h, h' => by
    cases u with
    | row gs => exact congrArg _ (RowField.AllFit.antisymm fs gs ht hu h h')
    | _ => exact h.elim
termination_by structural t => t

theorem RowField.Fits.antisymm : (f g : RowField) → f.Every Scalar.Sized → g.Every Scalar.Sized →
    f.Fits g → g.Fits f → f = g
  | ⟨name, t⟩, ⟨name', u⟩, ht, hu, h, h' => by
    have hname : name = name' := by
      rcases h.1 with hn | hn
      · exact hn.symm
      · rcases h'.1 with hn' | hn'
        · exact hn'
        · rw [hn, hn']
    rw [hname, DataType.Fits.antisymm t u ht hu h.2 h'.2]
termination_by structural f => f

theorem RowField.AllFit.antisymm : (fs gs : List RowField) → RowField.EveryAll Scalar.Sized fs →
    RowField.EveryAll Scalar.Sized gs → RowField.AllFit fs gs → RowField.AllFit gs fs → fs = gs
  | [], gs, _, _, h, _ => by
    cases gs with
    | nil => rfl
    | cons => exact h.elim
  | f :: fs, gs, hf, hg, h, h' => by
    cases gs with
    | nil => exact h.elim
    | cons g gs =>
      rw [RowField.Fits.antisymm f g hf.1 hg.1 h.1 h'.1,
        RowField.AllFit.antisymm fs gs hf.2 hg.2 h.2 h'.2]
termination_by structural fs => fs

end

mutual

theorem DataType.Every.supertype? {p : Scalar → Prop}
    (hp : ∀ t u w : Scalar, t.supertype? u = some w → p t → p u → p w) :
    (t u w : DataType) → t.supertype? u = some w → t.Every p → u.Every p → w.Every p
  | .unknown, u, w, hw, _, hu => by
    cases hw
    exact hu
  | .scalar t, u, w, hw, ht, hu => by
    cases u with
    | unknown =>
      cases hw
      exact ht
    | scalar u =>
      simp only [DataType.supertype?, Option.map_eq_some_iff] at hw
      obtain ⟨w, hw, rfl⟩ := hw
      exact hp t u w hw ht hu
    | _ => cases hw
  | .array t, u, w, hw, ht, hu => by
    cases u with
    | unknown =>
      cases hw
      exact ht
    | array u =>
      simp only [DataType.supertype?, Option.map_eq_some_iff] at hw
      obtain ⟨w, hw, rfl⟩ := hw
      exact DataType.Every.supertype? hp t u w hw ht hu
    | _ => cases hw
  | .map k v, u, w, hw, ht, hu => by
    cases u with
    | unknown =>
      cases hw
      exact ht
    | map k' v' =>
      obtain ⟨key, hk, hw⟩ := Option.bind_eq_some_iff.1 hw
      obtain ⟨value, hv, hw⟩ := Option.bind_eq_some_iff.1 hw
      cases hw
      exact ⟨DataType.Every.supertype? hp k k' key hk ht.1 hu.1,
        DataType.Every.supertype? hp v v' value hv ht.2 hu.2⟩
    | _ => cases hw
  | .row fs, u, w, hw, ht, hu => by
    cases u with
    | unknown =>
      cases hw
      exact ht
    | row gs =>
      obtain ⟨ws, hws, rfl⟩ := Option.map_eq_some_iff.1 hw
      exact RowField.EveryAll.supertypes? hp fs gs ws hws ht hu
    | _ => cases hw
termination_by structural t => t

theorem RowField.Every.supertype? {p : Scalar → Prop}
    (hp : ∀ t u w : Scalar, t.supertype? u = some w → p t → p u → p w) :
    (f g w : RowField) → f.supertype? g = some w → f.Every p → g.Every p → w.Every p
  | ⟨_, t⟩, ⟨_, u⟩, _, hw, ht, hu => by
    simp only [RowField.supertype?, Option.map_eq_some_iff] at hw
    obtain ⟨w, hw, rfl⟩ := hw
    exact DataType.Every.supertype? hp t u w hw ht hu
termination_by structural f => f

theorem RowField.EveryAll.supertypes? {p : Scalar → Prop}
    (hp : ∀ t u w : Scalar, t.supertype? u = some w → p t → p u → p w) :
    (fs gs ws : List RowField) → RowField.supertypes? fs gs = some ws →
      RowField.EveryAll p fs → RowField.EveryAll p gs → RowField.EveryAll p ws
  | [], gs, ws, hws, _, _ => by
    cases gs <;> cases hws
    trivial
  | f :: fs, gs, ws, hws, hf, hg => by
    cases gs with
    | nil => cases hws
    | cons g gs =>
      obtain ⟨w, hw, hws⟩ := Option.bind_eq_some_iff.1 hws
      obtain ⟨ws', hws', hws⟩ := Option.bind_eq_some_iff.1 hws
      cases hws
      exact ⟨RowField.Every.supertype? hp f g w hw hf.1 hg.1,
        RowField.EveryAll.supertypes? hp fs gs ws' hws' hf.2 hg.2⟩
termination_by structural fs => fs

end

section

variable {α β γ : Type} {r : Option α} {r' : Option β}

theorem exists_map_eq_some {f : α → β} {P : β → Prop} :
    (∃ w, r.map f = some w ∧ P w) ↔ ∃ a, r = some a ∧ P (f a) := by
  cases r <;> simp

theorem exists_both_eq_some {f : α → β → γ} {P : γ → Prop} :
    (∃ w, (do let a ← r; let b ← r'; return f a b) = some w ∧ P w) ↔
      ∃ a, r = some a ∧ ∃ b, r' = some b ∧ P (f a b) := by
  cases r <;> cases r' <;> simp

end

mutual

/-- The common type of two types is the least that both fit. -/
theorem DataType.supertype?_fits_iff : (t u v : DataType) → t.Sized → u.Sized →
    ((∃ w, t.supertype? u = some w ∧ w.Fits v) ↔ t.Fits v ∧ u.Fits v)
  | .unknown, u, v, _, _ => by simp [DataType.supertype?, DataType.Fits]
  | .scalar t, u, v, ht, hu => by
    cases u with
    | scalar u =>
      simp only [DataType.supertype?, exists_map_eq_some]
      cases v with
      | scalar v => exact Scalar.supertype?_fits_iff ht hu
      | _ => simp [DataType.Fits]
    | _ => cases v <;> simp [DataType.supertype?, DataType.Fits]
  | .array t, u, v, ht, hu => by
    cases u with
    | array u =>
      simp only [DataType.supertype?, exists_map_eq_some]
      cases v with
      | array v => exact DataType.supertype?_fits_iff t u v ht hu
      | _ => simp [DataType.Fits]
    | _ => cases v <;> simp [DataType.supertype?, DataType.Fits]
  | .map k v, u, w, ht, hu => by
    cases u with
    | map k' v' =>
      simp only [DataType.supertype?, exists_both_eq_some]
      cases w with
      | map k'' v'' =>
        have hk := DataType.supertype?_fits_iff k k' k'' ht.1 hu.1
        have hv := DataType.supertype?_fits_iff v v' v'' ht.2 hu.2
        simp only [DataType.Fits]
        grind
      | _ => simp [DataType.Fits]
    | _ => cases w <;> simp [DataType.supertype?, DataType.Fits]
  | .row fs, u, v, ht, hu => by
    cases u with
    | row gs =>
      simp only [DataType.supertype?, exists_map_eq_some]
      cases v with
      | row hs => exact RowField.supertypes?_fit_iff fs gs hs ht hu
      | _ => simp [DataType.Fits]
    | _ => cases v <;> simp [DataType.supertype?, DataType.Fits]
termination_by structural t => t

theorem RowField.supertype?_fits_iff : (f g h : RowField) → f.Every Scalar.Sized →
    g.Every Scalar.Sized → ((∃ w, f.supertype? g = some w ∧ w.Fits h) ↔ f.Fits h ∧ g.Fits h)
  | ⟨a, t⟩, ⟨b, u⟩, ⟨c, v⟩, ht, hu => by
    have ih := DataType.supertype?_fits_iff t u v ht hu
    simp only [RowField.supertype?, exists_map_eq_some, RowField.Fits]
    grind
termination_by structural f => f

theorem RowField.supertypes?_fit_iff : (fs gs hs : List RowField) →
    RowField.EveryAll Scalar.Sized fs → RowField.EveryAll Scalar.Sized gs →
    ((∃ ws, RowField.supertypes? fs gs = some ws ∧ RowField.AllFit ws hs) ↔
      RowField.AllFit fs hs ∧ RowField.AllFit gs hs)
  | [], gs, hs, _, _ => by
    cases gs <;> cases hs <;> simp [RowField.supertypes?, RowField.AllFit]
  | f :: fs, gs, hs, hf, hg => by
    cases gs with
    | nil => cases hs <;> simp [RowField.supertypes?, RowField.AllFit]
    | cons g gs =>
      simp only [RowField.supertypes?, exists_both_eq_some]
      cases hs with
      | nil => simp [RowField.AllFit]
      | cons h hs =>
        have hh := RowField.supertype?_fits_iff f g h hf.1 hg.1
        have hhs := RowField.supertypes?_fit_iff fs gs hs hf.2 hg.2
        simp only [RowField.AllFit]
        grind
termination_by structural fs => fs

end

namespace DataType

variable {a b c : DataType}

theorem supertype?_sized {w : DataType} (h : a.supertype? b = some w) (ha : a.Sized)
    (hb : b.Sized) : w.Sized :=
  Every.supertype? (fun _ _ _ => Scalar.supertype?_sized) a b w h ha hb

/-- Two results are equal if the same types lie above them. -/
theorem eq_of_fits_iff {r r' : Option DataType} (hr : ∀ w, r = some w → w.Sized)
    (hr' : ∀ w, r' = some w → w.Sized)
    (h : ∀ v, (∃ w, r = some w ∧ w.Fits v) ↔ ∃ w, r' = some w ∧ w.Fits v) : r = r' := by
  cases r with
  | none =>
    cases r' with
    | none => rfl
    | some w' =>
      obtain ⟨w, hw, -⟩ := (h w').2 ⟨w', rfl, .refl w'⟩
      cases hw
  | some w =>
    obtain ⟨w', hw', hle⟩ := (h w).1 ⟨w, rfl, .refl w⟩
    obtain ⟨w'', hw'', hge⟩ := (h w').2 ⟨w', hw', .refl w'⟩
    cases hw''
    rw [hw', Fits.antisymm w w' (hr w rfl) (hr' w' hw') hge hle]

theorem supertype?_comm (ha : a.Sized) (hb : b.Sized) : a.supertype? b = b.supertype? a := by
  apply eq_of_fits_iff
  · intro w hw
    exact supertype?_sized hw ha hb
  · intro w hw
    exact supertype?_sized hw hb ha
  · intro v
    rw [supertype?_fits_iff a b v ha hb, supertype?_fits_iff b a v hb ha, and_comm]

theorem supertype?_self (ha : a.Sized) : a.supertype? a = some a := by
  apply eq_of_fits_iff
  · intro w hw
    exact supertype?_sized hw ha ha
  · rintro w ⟨⟩
    exact ha
  · intro v
    rw [supertype?_fits_iff a a v ha ha]
    simp

theorem unknown_supertype? (a : DataType) : unknown.supertype? a = some a := rfl

theorem supertype?_unknown (a : DataType) : a.supertype? unknown = some a := by cases a <;> rfl

theorem bind_supertype?_fits_iff {r : Option DataType} (hr : ∀ w, r = some w → w.Sized)
    (hc : c.Sized) (v : DataType) :
    (∃ w, (r.bind fun x => x.supertype? c) = some w ∧ w.Fits v) ↔
      (∃ w, r = some w ∧ w.Fits v) ∧ c.Fits v := by
  cases r with
  | none => simp
  | some w => simp [supertype?_fits_iff w c v (hr w rfl) hc]

theorem supertype?_assoc (ha : a.Sized) (hb : b.Sized) (hc : c.Sized) :
    ((a.supertype? b).bind fun w => w.supertype? c) =
      (b.supertype? c).bind fun w => a.supertype? w := by
  have hab : ∀ w, a.supertype? b = some w → w.Sized := fun w hw => supertype?_sized hw ha hb
  have hbc : ∀ w, b.supertype? c = some w → w.Sized := fun w hw => supertype?_sized hw hb hc
  have hcomm : ((b.supertype? c).bind fun w => a.supertype? w) =
      (b.supertype? c).bind fun w => w.supertype? a :=
    Option.bind_congr fun w hw => supertype?_comm ha (hbc w hw)
  rw [hcomm]
  apply eq_of_fits_iff
  · intro w hw
    obtain ⟨x, hx, hw⟩ := Option.bind_eq_some_iff.1 hw
    exact supertype?_sized hw (hab x hx) hc
  · intro w hw
    obtain ⟨x, hx, hw⟩ := Option.bind_eq_some_iff.1 hw
    exact supertype?_sized hw (hbc x hx) ha
  · intro v
    rw [bind_supertype?_fits_iff hab hc, bind_supertype?_fits_iff hbc ha,
      supertype?_fits_iff a b v ha hb, supertype?_fits_iff b c v hb hc]
    grind

/-- Common types are found in any order: equal types agree, an unknown type gives way, and neither
the order of two types nor the grouping of three makes a difference, not even to whether there is
a common type. -/
theorem supertype?_partial_join {a b c : DataType} (ha : a.Sized) (hb : b.Sized) (hc : c.Sized) :
    a.supertype? a = some a ∧ a.supertype? b = b.supertype? a ∧
      unknown.supertype? a = some a ∧ a.supertype? unknown = some a ∧
      ((a.supertype? b).bind fun w => w.supertype? c) =
        (b.supertype? c).bind fun w => a.supertype? w :=
  ⟨supertype?_self ha, supertype?_comm ha hb, unknown_supertype? a, supertype?_unknown a,
    supertype?_assoc ha hb hc⟩

/-- Digits are lost at the largest precision, but the same ones however three rows are grouped. -/
theorem supertype?_partial_join_rows :
    let a := row [⟨some "n", .bigint⟩, ⟨some "t", .unknown⟩]
    let b := row [⟨some "n", .decimal 38 10⟩, ⟨some "t", .varchar (some 3)⟩]
    let c := row [⟨some "m", .decimal 38 30⟩, ⟨some "t", .scalar (.char 2)⟩]
    let w := row [⟨none, .decimal 38 30⟩, ⟨some "t", .scalar (.char 3)⟩]
    ((a.supertype? b).bind fun ab => ab.supertype? c) = some w ∧
      ((b.supertype? c).bind fun bc => a.supertype? bc) = some w := by
  intro a b c w
  have ha : a.Sized := ⟨trivial, trivial, trivial⟩
  have hb : b.Sized := ⟨⟨by decide, by decide⟩, trivial, trivial⟩
  have hc : c.Sized := ⟨⟨by decide, by decide⟩, trivial, trivial⟩
  obtain ⟨-, -, -, -, hassoc⟩ := supertype?_partial_join ha hb hc
  have hw : ((a.supertype? b).bind fun ab => ab.supertype? c) = some w := by decide
  exact ⟨hw, hassoc ▸ hw⟩

end DataType

end Sql
