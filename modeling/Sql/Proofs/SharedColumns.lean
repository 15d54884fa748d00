import Mathlib.Data.List.Forall2
import Mathlib.Data.List.Nodup
import Sql.Proofs.Keys
import Sql.Proofs.Scoping
import Sql.Proofs.Sources

/-! Joins over shared columns. Where no name is listed twice, no column of either side is lost and
none but the shared ones is left out; a name that is listed twice has two columns in the result. -/
namespace Sql

variable {x y : Ident} {names : List Ident}

theorem Field.isNamed_iff {f : Field} : f.isNamed x = true ↔ ∃ z ∈ f.name, z.key = x.key := by
  simp only [isNamed, Option.any_eq_true, Ident.same_iff]
  rfl

theorem Field.isNamed_congr (h : x.key = y.key) (f : Field) : f.isNamed x = f.isNamed y := by
  rw [Bool.eq_iff_iff, isNamed_iff, isNamed_iff, h]

/-- A field has one name. -/
theorem Field.key_eq {f : Field} (hx : f.isNamed x = true) (hy : f.isNamed y = true) :
    x.key = y.key := by
  obtain ⟨z, hz, hzx⟩ := Field.isNamed_iff.1 hx
  obtain ⟨w, hw, hwy⟩ := Field.isNamed_iff.1 hy
  obtain rfl : z = w := Option.some.inj (hz.symm.trans hw)
  exact hzx.symm.trans hwy

namespace Schema

variable {s l r : Schema} {i j : Nat} {f g : Field}

/-! ### The field of a name -/

/-- The field at this position is the only one of the name. -/
structure Only (s : Schema) (x : Ident) (i : Nat) (f : Field) : Prop where
  stands : s.fields[i]? = some f
  named : f.isNamed x = true
  unique : ∀ j g, s.fields[j]? = some g → g.isNamed x = true → j = i

theorem mem_matching : (i, f) ∈ s.matching x [] ↔ s.fields[i]? = some f ∧ f.isNamed x = true := by
  simp [matching, Field.answers, List.mem_zipIdx_iff_getElem?]

theorem only_of_find? (h : s.find? x [] = .ok (some (i, f))) : s.Only x i f := by
  unfold find? at h
  split at h
  · cases h
  · rename_i found hmatching
    cases h
    obtain ⟨hat, hnamed⟩ := mem_matching.1 (hmatching ▸ List.mem_singleton_self (i, f))
    refine ⟨hat, hnamed, ?_⟩
    intro j g hj hg
    have hmem : (j, g) ∈ s.matching x [] := mem_matching.2 ⟨hj, hg⟩
    rw [hmatching, List.mem_singleton] at hmem
    cases hmem
    rfl
  · cases h

theorem length_typesOf (s : Schema) (x : Ident) :
    (s.typesOf x).length = s.fields.countP (·.isNamed x) := by
  rw [typesOf, List.length_map, List.countP_eq_length_filter]

theorem find?_of_one (h : s.fields.countP (·.isNamed x) = 1) :
    ∃ i f, s.find? x [] = .ok (some (i, f)) := by
  rw [← length_typesOf] at h
  rcases s.find?_cases x with ⟨ht, -⟩ | ⟨i, f, -, hf⟩ | ⟨t, u, ts, ht, -⟩
  · simp [ht] at h
  · exact ⟨i, f, hf⟩
  · simp [ht] at h

theorem find?_of_many (h : 2 ≤ s.fields.countP (·.isNamed x)) :
    s.find? x [] = .error (.ambiguousColumn x) := by
  rw [← length_typesOf] at h
  rcases s.find?_cases x with ⟨ht, -⟩ | ⟨i, f, ht, -⟩ | ⟨t, u, ts, -, hf⟩
  · simp [ht] at h
  · simp [ht] at h
  · exact hf

/-- Different names have different fields. -/
theorem Only.key_eq (hx : s.Only x i f) (hy : s.Only y i g) : x.key = y.key := by
  obtain rfl : f = g := Option.some.inj (hx.stands.symm.trans hy.stands)
  exact Field.key_eq hx.named hy.named

/-- Each name has a field of its own at one of the places, in order. -/
def Places (s : Schema) (names : List Ident) (places : List (Nat × Field)) : Prop :=
  List.Forall₂ (fun x place => s.Only x place.1 place.2) names places

namespace Places

variable {places : List (Nat × Field)}

theorem named (h : s.Places names places) :
    List.Forall₂ (fun x f => f.isNamed x = true) names (places.map Prod.snd) :=
  List.forall₂_map_right_iff.2 (h.imp fun _ _ hplace => hplace.named)

theorem exists_of_name (h : s.Places names places) (hx : x ∈ names) :
    ∃ place ∈ places, s.Only x place.1 place.2 := by
  induction h with
  | nil => cases hx
  | @cons y place names places hplace _ ih =>
    rcases List.mem_cons.1 hx with rfl | hx
    · exact ⟨place, List.mem_cons_self, hplace⟩
    · obtain ⟨place', hmem, hplace'⟩ := ih hx
      exact ⟨place', List.mem_cons_of_mem place hmem, hplace'⟩

theorem exists_of_place {place : Nat × Field} (h : s.Places names places) (hp : place ∈ places) :
    ∃ x ∈ names, s.Only x place.1 place.2 := by
  induction h with
  | nil => cases hp
  | @cons y place names places hplace _ ih =>
    rcases List.mem_cons.1 hp with rfl | hp
    · exact ⟨y, List.mem_cons_self, hplace⟩
    · obtain ⟨x, hmem, hx⟩ := ih hp
      exact ⟨x, List.mem_cons_of_mem y hmem, hx⟩

/-- Different names are at different places. -/
theorem nodup (h : s.Places names places) (hd : names.Pairwise fun x y => x.same y = false) :
    (places.map Prod.fst).Nodup := by
  induction h with
  | nil => exact .nil
  | @cons y place names places hplace hrest ih =>
    obtain ⟨hy, hd⟩ := List.pairwise_cons.1 hd
    refine List.nodup_cons.2 ⟨?_, ih hd⟩
    intro hmem
    obtain ⟨place', hp, hpos⟩ := List.mem_map.1 hmem
    obtain ⟨x, hx, hx'⟩ := exists_of_place hrest hp
    have hsame : y.same x = true := Ident.same_iff.2 (hplace.key_eq (hpos ▸ hx'))
    rw [hy x hx] at hsame
    cases hsame

end Places

/-! ### The remaining fields -/

theorem mem_except {used : List Nat} :
    f ∈ s.except used ↔ ∃ i, s.fields[i]? = some f ∧ i ∉ used := by
  simp only [except, List.mem_map, List.mem_filter, Prod.exists, List.mem_zipIdx_iff_getElem?,
    Bool.not_eq_true', List.contains_eq_mem, decide_eq_false_iff_not]
  constructor
  · rintro ⟨g, i, ⟨hg, hi⟩, rfl⟩
    exact ⟨i, hg, hi⟩
  · rintro ⟨i, hf, hi⟩
    exact ⟨f, i, ⟨hf, hi⟩, rfl⟩

/-- The fields of a schema, one of them taken for each name, and the others in their order. -/
structure Splits (s : Schema) (names : List Ident) (taken rest : List Field) : Prop where
  named : List.Forall₂ (fun x f => f.isNamed x = true) names taken
  all : (taken ++ rest).Perm s.fields
  order : rest.Sublist s.fields

theorem except_sublist (s : Schema) (used : List Nat) : (s.except used).Sublist s.fields := by
  have h := (List.filter_sublist (p := fun p : Field × Nat => !used.contains p.2)
    (l := s.fields.zipIdx)).map Prod.fst
  rwa [List.zipIdx_map_fst] at h

namespace Places

variable {places : List (Nat × Field)}

/-- Nothing is left of a name that is listed. -/
theorem countP_except (h : s.Places names places) (hx : x ∈ names) :
    (s.except (places.map Prod.fst)).countP (·.isNamed x) = 0 := by
  obtain ⟨⟨i, f⟩, hp, honly⟩ := h.exists_of_name hx
  refine List.countP_eq_zero.2 ?_
  intro g hg hnamed
  obtain ⟨j, hj, hunused⟩ := mem_except.1 hg
  obtain rfl := honly.unique j g hj hnamed
  exact hunused (List.mem_map_of_mem hp)

/-- The fields at the places. -/
theorem perm_taken (h : s.Places names places) (hnodup : (places.map Prod.fst).Nodup) :
    (places.map Prod.snd).Perm
      ((s.fields.zipIdx.filter fun p => (places.map Prod.fst).contains p.2).map Prod.fst) := by
  have hswap : (places.map Prod.swap).Nodup := by
    refine List.Nodup.of_map Prod.snd ?_
    rwa [List.map_map]
  have hzip : s.fields.zipIdx.Nodup := by
    refine List.Nodup.of_map Prod.snd ?_
    rw [List.zipIdx_map_snd]
    exact List.nodup_range'
  have hperm := (List.perm_ext_iff_of_nodup hswap (hzip.filter fun p =>
    (places.map Prod.fst).contains p.2)).2 ?_
  · have := hperm.map Prod.fst
    rwa [List.map_map] at this
  -- A place holds the field that stands there, so that its number says which place it is.
  rintro ⟨f, i⟩
  simp only [List.mem_map, List.mem_filter, List.mem_zipIdx_iff_getElem?, List.contains_eq_mem,
    decide_eq_true_eq]
  constructor
  · rintro ⟨⟨j, g⟩, hp, hswapped⟩
    cases hswapped
    obtain ⟨x, -, honly⟩ := h.exists_of_place hp
    exact ⟨honly.stands, (j, g), hp, rfl⟩
  · rintro ⟨hf, ⟨j, g⟩, hp, rfl⟩
    obtain ⟨x, -, honly⟩ := h.exists_of_place hp
    obtain rfl : g = f := Option.some.inj (honly.stands.symm.trans hf)
    exact ⟨(j, g), hp, rfl⟩

theorem splits (h : s.Places names places) (hd : names.Pairwise fun x y => x.same y = false) :
    s.Splits names (places.map Prod.snd) (s.except (places.map Prod.fst)) := by
  refine ⟨h.named, ?_, s.except_sublist _⟩
  have hparts := List.filter_append_perm (fun p => (places.map Prod.fst).contains p.2)
    s.fields.zipIdx
  have hfields := hparts.map Prod.fst
  rw [List.map_append, List.zipIdx_map_fst] at hfields
  exact ((h.perm_taken (h.nodup hd)).append_right _).trans hfields

end Places

/-! ### Shared columns -/

theorem sharedField_only (s : Schema) (x : Ident) :
    Yields (fun place => s.Only x place.1 place.2) (s.sharedField x) := by
  rintro ⟨i, f⟩ h
  obtain ⟨found, hfound, h⟩ := bind_eq_ok_iff.1 h
  cases found with
  | none => cases h
  | some found =>
    cases h
    exact only_of_find? hfound

/-- The columns take the place of one field from each side, and match as those of a set
operation. -/
structure Shares (l r : Schema) (names : List Ident) (cs : List SharedColumn)
    (lefts rights : List (Nat × Field)) : Prop where
  left : l.Places names lefts
  right : r.Places names rights
  left_eq : cs.map (·.left) = lefts.map Prod.fst
  right_eq : cs.map (·.right) = rights.map Prod.fst
  names_eq : cs.map (·.field.name) = lefts.map (·.2.name)
  fields (position : Nat) :
    unify position (lefts.map Prod.snd) (rights.map Prod.snd) = .ok (cs.map (·.field))

theorem mapM_sharedColumn (l r : Schema) (names : List Ident) :
    Yields (fun cs => ∃ lefts rights, l.Shares r names cs lefts rights)
      (names.mapM (l.sharedColumn r)) := by
  induction names with
  | nil => exact .ok ⟨[], [], .nil, .nil, rfl, rfl, rfl, fun _ => rfl⟩
  | cons x names ih =>
    rw [List.mapM_cons]
    refine .bind (P := fun c => ∃ i f j g, l.Only x i f ∧ r.Only x j g ∧ ∃ type,
      f.type.supertype? g.type = some type ∧ c = ⟨i, j, ⟨f.name, type, none⟩⟩) ?_ ?_
    · refine (l.sharedField_only x).bind fun (i, f) hf => ?_
      refine (r.sharedField_only x).bind fun (j, g) hg => ?_
      dsimp only
      split
      · rename_i type htype
        exact .ok ⟨i, f, j, g, hf, hg, type, htype, rfl⟩
      · exact .error _
    · rintro _ ⟨i, f, j, g, hf, hg, type, htype, rfl⟩
      refine ih.map ?_
      rintro cs ⟨lefts, rights, h⟩
      refine ⟨(i, f) :: lefts, (j, g) :: rights, .cons hf h.left, .cons hg h.right, ?_, ?_, ?_, ?_⟩
      · rw [List.map_cons, List.map_cons, h.left_eq]
      · rw [List.map_cons, List.map_cons, h.right_eq]
      · rw [List.map_cons, List.map_cons, h.names_eq]
      · intro position
        simp only [List.map_cons, unify, htype]
        exact bind_of_ok (h.fields _)

theorem coalesce_fields (l r : Schema) (names : List Ident) :
    Yields (fun s => ∃ cs lefts rights, l.Shares r names cs lefts rights ∧
        s.fields = cs.map (·.field) ++ l.except (lefts.map Prod.fst) ++
          r.except (rights.map Prod.fst))
      (l.coalesce r names) := by
  refine (l.mapM_sharedColumn r names).bind ?_
  rintro cs ⟨lefts, rights, h⟩
  refine .ok ⟨cs, lefts, rights, h, ?_⟩
  rw [Schema.of, h.left_eq, h.right_eq]

/-! ### Looking up a shared column -/

theorem Places.countP_named {places : List (Nat × Field)} (h : s.Places names places) (x : Ident) :
    (places.map Prod.snd).countP (·.isNamed x) = names.countP (·.same x) := by
  induction h with
  | nil => rfl
  | @cons y place names places hplace _ ih =>
    have hname : place.2.isNamed x = y.same x := by
      rw [Bool.eq_iff_iff, Ident.same_iff]
      constructor
      · exact Field.key_eq hplace.named
      · intro hxy
        exact Field.isNamed_congr hxy place.2 ▸ hplace.named
    rw [List.map_cons, List.countP_cons, List.countP_cons, ih, hname]

/-- A name that is listed has as many columns as it is listed times. -/
theorem countP_coalesce (h : l.coalesce r names = .ok s) (hx : x ∈ names) :
    s.fields.countP (·.isNamed x) = names.countP (·.same x) := by
  obtain ⟨cs, lefts, rights, hshares, hfields⟩ := l.coalesce_fields r names s h
  have hnamed (fs : List Field) :
      fs.countP (·.isNamed x) = (fs.map (·.name)).countP (·.any (·.same x)) := by
    rw [List.countP_map]
    rfl
  have hshared : (cs.map (·.field)).countP (·.isNamed x) = names.countP (·.same x) := by
    rw [← hshares.left.countP_named, hnamed, hnamed, List.map_map, List.map_map]
    exact congrArg _ hshares.names_eq
  rw [hfields, List.countP_append, List.countP_append, hshared, hshares.left.countP_except hx,
    hshares.right.countP_except hx, Nat.add_zero]

/-- A name that is listed twice cannot be used in the result, although each side has one column of
the name. -/
theorem find?_coalesce_repeated (h : l.coalesce r names = .ok s) (hx : x ∈ names)
    (htwice : 2 ≤ names.countP (·.same x)) : s.find? x [] = .error (.ambiguousColumn x) :=
  find?_of_many ((countP_coalesce h hx).symm ▸ htwice)

/-! ### Lists without repetitions -/

/-- The columns of both sides, those of the names once: first the shared ones, which belong to no
relation, and then the others of the left and of the right side. -/
structure Conserves (l r : Schema) (names : List Ident) (s : Schema) : Prop where
  fields : ∃ shared lefts leftRest rights rightRest,
    s.fields = shared ++ leftRest ++ rightRest ∧ l.Splits names lefts leftRest ∧
      r.Splits names rights rightRest ∧ unify 0 lefts rights = .ok shared ∧
      Field.AllFree shared ∧ shared.length = names.length
  single : ∀ x ∈ names, ∃ i f, s.find? x [] = .ok (some (i, f))

theorem Splits.length {taken rest : List Field} (h : s.Splits names taken rest) :
    names.length + rest.length = s.length := by
  rw [Schema.length, ← h.all.length_eq, List.length_append, h.named.length_eq]

theorem Conserves.length (h : l.Conserves r names s) :
    s.length + names.length = l.length + r.length := by
  obtain ⟨shared, lefts, leftRest, rights, rightRest, hfields, hl, hr, -, -, hshared⟩ := h.fields
  have hs : s.length = shared.length + leftRest.length + rightRest.length := by
    rw [Schema.length, hfields, List.length_append, List.length_append]
  have hleft := hl.length
  have hright := hr.length
  omega

theorem countP_same_of_pairwise (hd : names.Pairwise fun x y => x.same y = false)
    (hx : x ∈ names) : names.countP (·.same x) = 1 := by
  induction hd with
  | nil => cases hx
  | @cons y names hy _ ih =>
    rcases List.mem_cons.1 hx with rfl | hx
    · have hzero : names.countP (·.same x) = 0 := by
        refine List.countP_eq_zero.2 ?_
        intro z hz hsame
        have hsymm : x.same z = true := Ident.same_iff.2 (Ident.same_iff.1 hsame).symm
        rw [hy z hz] at hsymm
        cases hsymm
      rw [List.countP_cons, hzero, if_pos (Ident.same_iff.2 rfl)]
    · rw [List.countP_cons, ih hx, hy x hx]
      rfl

/-- A join over different names neither loses nor repeats a column. -/
theorem coalesce_conserves (hd : names.Pairwise fun x y => x.same y = false) :
    Yields (l.Conserves r names) (l.coalesce r names) := by
  intro s h
  obtain ⟨cs, lefts, rights, hshares, hfields⟩ := l.coalesce_fields r names s h
  have hunify := hshares.fields 0
  have hlength : (cs.map (·.field)).length = names.length := by
    rw [List.length_map, hshares.left.length_eq, ← List.length_map (·.field.name),
      hshares.names_eq, List.length_map]
  refine ⟨⟨_, _, _, _, _, hfields, hshares.left.splits hd, hshares.right.splits hd, hunify,
    unify_free 0 _ _ _ hunify, hlength⟩, ?_⟩
  intro x hx
  exact find?_of_one ((countP_coalesce h hx).trans (countP_same_of_pairwise hd hx))

end Schema

theorem Ident.pairwise_distinct (xs : List Ident) :
    (distinct xs).Pairwise fun x y => x.same y = false := by
  have hkept (xs kept : List Ident) (hd : kept.Pairwise fun x y => x.same y = false) :
      (xs.foldl (fun kept x => if kept.any (·.same x) then kept else kept ++ [x]) kept).Pairwise
        fun x y => x.same y = false := by
    induction xs generalizing kept with
    | nil => exact hd
    | cons x xs ih =>
      rw [List.foldl_cons]
      split
      · exact ih kept hd
      · rename_i hfresh
        refine ih _ (List.pairwise_append.2 ⟨hd, List.pairwise_singleton _ _, ?_⟩)
        simpa using hfresh
  exact hkept xs [] .nil

namespace Schema

variable {l r : Schema}

/-- The same holds for the names that both sides have, whatever their number. -/
theorem naturalJoin_conserves (l r : Schema) :
    Yields (l.Conserves r (l.commonNames r)) (l.naturalJoin r) := by
  unfold naturalJoin
  split
  · rename_i hnone
    rw [hnone]
    refine .ok ⟨⟨[], [], l.fields, [], r.fields, rfl, ?_, ?_, rfl, nofun, rfl⟩, nofun⟩
    · exact ⟨.nil, .refl _, .refl _⟩
    · exact ⟨.nil, .refl _, .refl _⟩
  · exact coalesce_conserves (Ident.pairwise_distinct _)

/-- `USING ("x", X)` leaves two columns, neither of which can be used, where `USING ("x")` leaves
one. -/
example :
    let x := Ident.quoted "x"
    let side : Schema := .ofFields [.named x .bigint]
    let names : List Ident := [x, .plain "X"]
    (side.coalesce side [x]) = .ok (.ofFields [.named x .bigint]) ∧
      (side.coalesce side names) = .ok (.ofFields [.named x .bigint, .named x .bigint]) :=
  ⟨by cbv, by cbv⟩

end Schema

end Sql
