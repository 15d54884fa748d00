import Sql.Proofs.Schemas
import Sql.Proofs.Supertypes
import Sql.Resolve.Tree

/-! Where the types of columns and expressions come from. Each rule builds new types from the types
that it is given and from types with small parameters, so that a property of scalars which holds of
those and which common types keep is a property of all. -/
namespace Sql

/-- A decimal has no more digits behind its point than in all, and no parameter of a decimal or of a
time is too large. -/
def Scalar.Bounded : Scalar → Prop
  | .decimal p s => s ≤ p ∧ p ≤ DataType.maxPrecision
  | .time p _ | .timestamp p _ => p ≤ DataType.maxTimePrecision
  | _ => True

/-- A property that types do not lose where new ones come from old ones, and that new types have by
their bounds. -/
structure Scalar.Stable (P : Scalar → Prop) : Prop where
  of_bounded : ∀ t : Scalar, t.Bounded → P t
  supertype : ∀ t u w : Scalar, t.supertype? u = some w → P t → P u → P w
  sum : ∀ p s, P (.decimal p s) → P (.decimal DataType.maxPrecision s)

namespace Scalar

variable {t u w : Scalar}

theorem Bounded.sized (h : t.Bounded) : t.Sized := by
  cases t <;> first | exact h | trivial

theorem Widens.bounded (h : Widens t u w) (ht : t.Bounded) (hu : u.Bounded) : w.Bounded := by
  cases h with
  | decimal | whole => exact Widens.sized (by constructor <;> assumption) ht.sized hu.sized
  | timestamp | time => exact Nat.max_le.2 ⟨ht, hu⟩
  | double | real | varchar | unboundedLeft | unboundedRight | char | padded | unpadded => trivial
  | date | left => exact ht
  | right => exact hu

theorem stable_bounded : Stable Bounded where
  of_bounded _ h := h
  supertype t u w h ht hu := by
    rcases supertype?_cases h with ⟨-, rfl⟩ | h | h
    · exact hu
    · exact h.bounded ht hu
    · exact h.bounded hu ht
  sum _ _ h := ⟨Nat.le_trans h.1 h.2, Nat.le_refl _⟩

end Scalar

variable {P : Scalar → Prop}

theorem RowField.everyAll_iff {fields : List RowField} :
    RowField.EveryAll P fields ↔ ∀ f ∈ fields, f.type.Every P := by
  induction fields with
  | nil => simp [RowField.EveryAll]
  | cons f fields ih =>
    obtain ⟨name, type⟩ := f
    simp [RowField.EveryAll, RowField.Every, ih]

/-! ### Literals, operators and functions -/

theorem DataType.ofDecimalText_every (hP : Scalar.Stable P) (text : String) :
    (DataType.ofDecimalText text).Every P := by
  refine hP.of_bounded _ ?_
  simp only [Scalar.Bounded, DataType.maxPrecision]
  omega

theorem Literal.type_every (hP : Scalar.Stable P) (v : Literal) : v.type.Every P := by
  cases v with
  | null => trivial
  | decimal text => exact DataType.ofDecimalText_every hP text
  | integer n =>
    refine hP.of_bounded _ ?_
    split <;> trivial
  | boolean | double | string | binary => exact hP.of_bounded _ trivial

theorem typedLiteralType_every (hP : Scalar.Stable P) (type text : String) :
    (typedLiteralType type text).Every P := by
  unfold typedLiteralType
  extract_lets words
  split
  all_goals try exact hP.of_bounded _ trivial
  -- Times, timestamps and decimals have parameters, and an unknown name stands for no type.
  · exact hP.of_bounded _ (Nat.min_le_right _ _)
  · exact hP.of_bounded _ (Nat.min_le_right _ _)
  · exact DataType.ofDecimalText_every hP text
  · exact DataType.ofDecimalText_every hP text
  · trivial

namespace DataType

variable {t u : DataType} {types : List DataType}

theorem every_unknown : unknown.Every P := trivial

theorem every_supertype? (hP : Scalar.Stable P) {w : DataType} (h : t.supertype? u = some w)
    (ht : t.Every P) (hu : u.Every P) : w.Every P :=
  Every.supertype? hP.supertype t u w h ht hu

theorem agree_every (hP : Scalar.Stable P) (place : Place) (ht : t.Every P) (hu : u.Every P) :
    Yields (Every P) (t.agree place u) := by
  unfold agree
  split
  · exact .ok (every_supertype? hP ‹_› ht hu)
  · exact .error _

theorem foldlM_supertype?_every (hP : Scalar.Stable P) (ht : t.Every P)
    (hts : ∀ u ∈ types, u.Every P) : ∀ w ∈ types.foldlM DataType.supertype? t, w.Every P := by
  induction types generalizing t with
  | nil =>
    rintro _ ⟨⟩
    exact ht
  | cons u types ih =>
    obtain ⟨hu, hts⟩ := List.forall_mem_cons.1 hts
    intro w hw
    obtain ⟨v, hv, hw⟩ := Option.bind_eq_some_iff.1 hw
    exact ih (every_supertype? hP hv ht hu) hts w hw

theorem supertypeAll_every (hP : Scalar.Stable P) (hts : ∀ u ∈ types, u.Every P) :
    (supertypeAll types).Every P := by
  unfold supertypeAll
  cases h : types.foldlM DataType.supertype? .unknown with
  | none => trivial
  | some w => exact foldlM_supertype?_every hP every_unknown hts w h

theorem fieldType_every (x : Ident) (ht : t.Every P) : (t.fieldType x).Every P := by
  unfold fieldType
  split
  · split
    · exact RowField.everyAll_iff.1 ht _ (List.mem_of_find?_eq_some ‹_›)
    · trivial
  · trivial

theorem itemType_every {fields : List RowField} (position : Int)
    (hf : RowField.EveryAll P fields) : (itemType position fields).Every P := by
  unfold itemType
  split
  · split
    · exact RowField.everyAll_iff.1 hf _ (List.mem_of_getElem? ‹_›)
    · trivial
  · trivial

theorem unnested_every (ht : t.Every P) : ∀ u ∈ t.unnested, u.Every P := by
  cases t with
  | array => exact List.forall_mem_singleton.2 ht
  | map => exact List.forall_mem_cons.2 ⟨ht.1, List.forall_mem_singleton.2 ht.2⟩
  | _ => simp [unnested, Every]

theorem headD_every (hts : ∀ u ∈ types, u.Every P) : (types.headD .unknown).Every P := by
  cases types with
  | nil => trivial
  | cons u types => exact hts u List.mem_cons_self

end DataType

theorem sumType_every (hP : Scalar.Stable P) {t : DataType} (ht : t.Every P) :
    (sumType t).Every P := by
  unfold sumType
  split
  · exact hP.sum _ _ ht
  · split
    · exact hP.of_bounded _ trivial
    · exact ht

theorem averageType_every (hP : Scalar.Stable P) {t : DataType} (ht : t.Every P) :
    (averageType t).Every P := by
  unfold averageType
  split
  · exact ht
  · trivial
  · exact hP.of_bounded _ trivial

theorem returnType?_every (hP : Scalar.Stable P) (function : String) {args : List DataType}
    (hargs : ∀ t ∈ args, t.Every P) : ∀ t ∈ returnType? function args, t.Every P := by
  have hfirst := DataType.headD_every hargs
  have hrest : ∀ t ∈ args.drop 1, t.Every P := fun t ht => hargs t (List.mem_of_mem_drop ht)
  unfold returnType?
  extract_lets first
  split
  all_goals rintro _ ⟨⟩
  -- Most results are fixed, the type of the first argument or the common type of all.
  all_goals try exact hP.of_bounded _ trivial
  all_goals try exact hfirst
  all_goals try exact DataType.supertypeAll_every hP hargs
  · exact sumType_every hP hfirst
  · exact averageType_every hP hfirst
  · exact DataType.headD_every hrest
  · exact DataType.supertypeAll_every hP hrest
  all_goals
    have hdefault : DataType.defaultTimePrecision ≤ DataType.maxTimePrecision := by decide
    exact hP.of_bounded _ hdefault

theorem arithmeticType_every (hP : Scalar.Stable P) (op : BinaryOp) {l r : DataType}
    (hl : l.Every P) (hr : r.Every P) : Yields (DataType.Every P) (arithmeticType op l r) := by
  unfold arithmeticType
  split
  · exact .ok (hP.of_bounded _ trivial)
  split
  · exact .ok hl
  split
  · exact .ok hr
  · exact DataType.agree_every hP _ hl hr

theorem BinaryOp.type_every (hP : Scalar.Stable P) (op : BinaryOp) {l r : DataType}
    (hl : l.Every P) (hr : r.Every P) : Yields (DataType.Every P) (op.type l r) := by
  unfold BinaryOp.type
  split
  · exact .ok (hP.of_bounded _ trivial)
  split
  · split
    · exact DataType.agree_every hP _ hl hr
    · exact DataType.agree_every hP _ hl hr
    · exact .ok (hP.of_bounded _ trivial)
  · exact arithmeticType_every hP op hl hr

theorem UnaryOp.type_every (hP : Scalar.Stable P) (op : UnaryOp) {t : DataType}
    (ht : t.Every P) : (op.type t).Every P := by
  cases op with
  | not => exact hP.of_bounded _ trivial
  | minus | plus => exact ht

/-! ### Fields and schemas -/

/-- The types of all fields have the property throughout. -/
def Field.EveryAll (P : Scalar → Prop) (fields : List Field) : Prop :=
  ∀ f ∈ fields, f.type.Every P

namespace Schema

def Every (P : Scalar → Prop) (s : Schema) : Prop := Field.EveryAll P s.fields

variable {s l r : Schema} {fields : List Field} {types : List DataType}

theorem every_empty : empty.Every P := by
  intro f hf
  cases hf

theorem every_withSource (h : s.Every P) (n : Name) : (s.withSource n).Every P := by
  intro f hf
  obtain ⟨g, hg, rfl⟩ := List.mem_map.1 hf
  exact h g hg

theorem every_append (hl : l.Every P) (hr : r.Every P) : (l.append r).Every P :=
  List.forall_mem_append.2 ⟨hl, hr⟩

theorem rowType_every (h : s.Every P) : s.rowType.Every P := by
  refine RowField.everyAll_iff.2 fun f hf => ?_
  obtain ⟨g, hg, rfl⟩ := List.mem_map.1 hf
  exact h g hg

theorem valueType_every (h : s.Every P) : s.valueType.Every P := by
  unfold valueType
  split
  · rename_i f hf
    exact h f (by simp [hf])
  · exact rowType_every h

theorem generated_every (h : ∀ t ∈ types, t.Every P) : Field.EveryAll P (generated types) := by
  intro f hf
  obtain ⟨⟨t, i⟩, ht, rfl⟩ := List.mem_map.1 hf
  exact h t (List.fst_mem_of_mem_zipIdx ht)

theorem rename_every (x : Ident) (names : List Ident) (h : Field.EveryAll P fields) :
    Yields (Field.EveryAll P) (rename x names fields) := by
  unfold rename
  split
  · exact .ok h
  split
  · refine .ok fun f hf => ?_
    rw [← List.map_uncurry_zip_eq_zipWith] at hf
    obtain ⟨⟨g, name⟩, hg, rfl⟩ := List.mem_map.1 hf
    exact h g (List.of_mem_zip hg).1
  · exact .error _

theorem expand_every (h : s.Every P) (relation : Option Name) (names : List Ident) :
    Yields (Field.EveryAll P) (s.expand relation names) := by
  unfold expand
  split
  · exact rename_every _ _ h
  · split
    · exact rename_every _ _ fun f hf => h f (List.mem_filter.1 hf).1
    · exact .error _

theorem find?_every (h : s.Every P) (x : Ident) (qualifier : List Ident) :
    Yields (fun found => ∀ p ∈ found, p.2.type.Every P) (s.find? x qualifier) := by
  have hmatching : ∀ p ∈ s.matching x qualifier, p.2.type.Every P := by
    intro p hp
    obtain ⟨⟨f, i⟩, hf, rfl⟩ := List.mem_map.1 (List.mem_filter.1 hp).1
    exact h f (List.fst_mem_of_mem_zipIdx hf)
  unfold find?
  split
  · exact .ok nofun
  · rename_i found hfound
    rw [hfound] at hmatching
    refine .ok ?_
    rintro _ ⟨⟩
    exact hmatching found List.mem_cons_self
  · exact .error _

theorem sharedField_every (h : s.Every P) (x : Ident) :
    Yields (fun found => found.2.type.Every P) (s.sharedField x) := by
  refine (find?_every h x []).bind fun found hfound => ?_
  cases found with
  | some p => exact .ok (hfound p rfl)
  | none => exact .error _

theorem sharedColumn_every (hP : Scalar.Stable P) (hl : l.Every P) (hr : r.Every P) (x : Ident) :
    Yields (fun shared => shared.field.type.Every P) (l.sharedColumn r x) := by
  refine (sharedField_every hl x).bind fun (i, f) hf => ?_
  refine (sharedField_every hr x).bind fun (j, g) hg => ?_
  dsimp only
  split
  · exact .ok (DataType.every_supertype? hP ‹_› hf hg)
  · exact .error _

theorem coalesce_every (hP : Scalar.Stable P) (hl : l.Every P) (hr : r.Every P)
    (names : List Ident) : Yields (Every P) (l.coalesce r names) := by
  refine (Yields.mapM (fun x _ => sharedColumn_every hP hl hr x) names
    fun _ _ => trivial).bind fun shared hshared => .ok ?_
  refine List.forall_mem_append.2 ⟨List.forall_mem_append.2 ⟨fun f hf => ?_, ?_⟩, ?_⟩
  · obtain ⟨c, hc, rfl⟩ := List.mem_map.1 hf
    exact hshared c hc
  · exact fun f hf => hl f (mem_of_mem_except hf)
  · exact fun f hf => hr f (mem_of_mem_except hf)

theorem naturalJoin_every (hP : Scalar.Stable P) (hl : l.Every P) (hr : r.Every P) :
    Yields (Every P) (l.naturalJoin r) := by
  unfold naturalJoin
  split
  · exact .ok (every_append hl hr)
  · exact coalesce_every hP hl hr _

theorem unify_every (hP : Scalar.Stable P) (position : Nat) {fs gs : List Field}
    (hf : Field.EveryAll P fs) (hg : Field.EveryAll P gs) :
    Yields (Field.EveryAll P) (unify position fs gs) := by
  induction fs generalizing position gs with
  | nil => exact .ok nofun
  | cons f fs ih =>
    cases gs with
    | nil => exact .ok nofun
    | cons g gs =>
      obtain ⟨hf, hfs⟩ := List.forall_mem_cons.1 hf
      obtain ⟨hg, hgs⟩ := List.forall_mem_cons.1 hg
      rw [unify]
      split
      · have htype := DataType.every_supertype? hP ‹_› hf hg
        refine (ih (position + 1) hfs hgs).map fun rest hrest => ?_
        exact List.forall_mem_cons.2 ⟨htype, hrest⟩
      · exact .error _

theorem setOperation_every (hP : Scalar.Stable P) (hl : l.Every P) (hr : r.Every P) :
    Yields (Every P) (l.setOperation r) := by
  unfold setOperation
  split
  · exact (unify_every hP 0 hl hr).map fun _ h => h
  · exact .error _

end Schema

end Sql
