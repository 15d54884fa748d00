import Sql.Proofs.CrossJoins

/-! Merging schemas one after another. However three of them are bracketed, the fields and the
relation names are the same, and a strict merge compares the same pairs of fields. -/
namespace Sql

namespace Field

/-- No field of the second list repeats one of the first list or an earlier one of its own. -/
def Unrepeated (before fields : List Field) : Prop :=
  (∀ f ∈ before, ∀ g ∈ fields, f.repeats g = false) ∧
    fields.Pairwise fun f g => f.repeats g = false

instance (before fields : List Field) : Decidable (Unrepeated before fields) :=
  inferInstanceAs (Decidable (_ ∧ _))

namespace Unrepeated

variable {before fields more : List Field} {f : Field}

theorem nil (before : List Field) : Unrepeated before [] :=
  ⟨fun _ _ _ => nofun, .nil⟩

/-- The fields can be added in two steps. -/
theorem append_iff :
    Unrepeated before (fields ++ more) ↔
      Unrepeated before fields ∧ Unrepeated (before ++ fields) more := by
  simp only [Unrepeated, List.pairwise_append, List.forall_mem_append, forall₂_and]
  tauto

theorem single_iff : Unrepeated before [f] ↔ before.any (·.repeats f) = false := by
  simp [Unrepeated, List.any_eq_false]

theorem cons_iff :
    Unrepeated before (f :: fields) ↔
      before.any (·.repeats f) = false ∧ Unrepeated (before ++ [f]) fields := by
  rw [← single_iff, ← append_iff, List.singleton_append]

/-- With fewer fields in front, fewer are repeated. -/
theorem of_append (h : Unrepeated (before ++ more) fields) : Unrepeated more fields :=
  ⟨fun f hf => h.1 f (List.mem_append_right before hf), h.2⟩

end Unrepeated

/-- A column without a name repeats no other. -/
theorem repeats_of_name_eq_none {g : Field} (h : g.name = none) (f : Field) :
    f.repeats g = false := by
  rw [repeats, h]

end Field

namespace Schema

open Sql.Field (Unrepeated)

variable {s t u : Schema} {before names : List Name}

/-! ### Relation names -/

theorem pairwise_addRelation (h : before.Pairwise fun m n => m.same n = false) (n : Name) :
    (addRelation before n).Pairwise fun m n => m.same n = false := by
  cases hn : before.any (·.same n) with
  | true =>
    rw [addRelation_of_any hn]
    exact h
  | false =>
    rw [addRelation_of_not_any hn]
    refine List.pairwise_append.2 ⟨h, List.pairwise_singleton .., fun m hm k hk => ?_⟩
    rw [List.mem_singleton.1 hk]
    simpa using List.any_eq_false.1 hn m hm

/-- Names that are added one by one stay different. -/
theorem pairwise_foldl_addRelation (h : before.Pairwise fun m n => m.same n = false) :
    (names.foldl addRelation before).Pairwise fun m n => m.same n = false := by
  induction names generalizing before with
  | nil => exact h
  | cons n names ih => exact ih (pairwise_addRelation h n)

theorem append_empty (s : Schema) : s.append empty = s := by
  simp [append, empty]

theorem empty_append_iff :
    empty.append s = s ↔ s.relations.Pairwise fun m n => m.same n = false := by
  have happend : empty.append s = ⟨s.fields, s.relations.foldl addRelation []⟩ := rfl
  constructor
  · intro h
    rw [← h, happend]
    exact pairwise_foldl_addRelation .nil
  · intro h
    have hfold : s.relations.foldl addRelation [] = [] ++ s.relations := foldl_addRelation h
    rw [happend, hfold, List.nil_append]

/-! ### Strict merging -/

theorem extend?_eq_ok {before fields all : List Field} :
    extend? before fields = .ok all ↔ Unrepeated before fields ∧ before ++ fields = all := by
  induction fields generalizing before with
  | nil => simp [extend?, Unrepeated.nil]
  | cons f fields ih =>
    rw [Unrepeated.cons_iff, List.append_cons before f fields, and_assoc, ← ih, extend?]
    cases hname : f.name with
    | none =>
      have hnew : before.any (·.repeats f) = false :=
        List.any_eq_false.2 fun g _ => by simp [Field.repeats_of_name_eq_none hname g]
      simp [hnew]
    | some name => cases hany : before.any (·.repeats f) <;> simp

/-- A strict merge returns what appending returns, unless a field is repeated. -/
theorem appendStrict_eq_ok :
    s.appendStrict t = .ok u ↔ Unrepeated s.fields t.fields ∧ s.append t = u := by
  simp only [appendStrict, bind_eq_ok_iff, extend?_eq_ok, pure, Except.pure, Except.ok.injEq]
  constructor
  · rintro ⟨_, ⟨hnew, rfl⟩, rfl⟩
    exact ⟨hnew, rfl⟩
  · rintro ⟨hnew, rfl⟩
    exact ⟨_, ⟨hnew, rfl⟩, rfl⟩

variable {a b c : Schema}

theorem appendStrict_left_eq_ok :
    (do (← a.appendStrict b).appendStrict c) = .ok s ↔
      Unrepeated a.fields (b.fields ++ c.fields) ∧ (a.append b).append c = s := by
  simp only [bind_eq_ok_iff, appendStrict_eq_ok, Unrepeated.append_iff]
  constructor
  · rintro ⟨_, ⟨hab, rfl⟩, habc, rfl⟩
    exact ⟨⟨hab, habc⟩, rfl⟩
  · rintro ⟨⟨hab, habc⟩, rfl⟩
    exact ⟨_, ⟨hab, rfl⟩, habc, rfl⟩

theorem appendStrict_right_eq_ok :
    (do a.appendStrict (← b.appendStrict c)) = .ok s ↔
      Unrepeated a.fields (b.fields ++ c.fields) ∧ (a.append b).append c = s := by
  simp only [bind_eq_ok_iff, appendStrict_eq_ok, append_assoc]
  constructor
  · rintro ⟨_, ⟨-, rfl⟩, hnew, rfl⟩
    exact ⟨hnew, rfl⟩
  · rintro ⟨hnew, rfl⟩
    -- What is new behind the fields of `a` and `b` is new behind those of `b`.
    exact ⟨_, ⟨(Unrepeated.append_iff.1 hnew).2.of_append, rfl⟩, hnew, rfl⟩

/-- Appending always has a result, which does not depend on the bracketing, and the empty schema
changes nothing in front of a schema exactly if that one lists every relation once. With either
bracketing a strict merge has that same result if no named field of `b` or `c` has the name and the
source of an earlier field, and otherwise none. -/
theorem append_appendStrict_assoc (a b c : Schema) :
    (a.append b).append c = a.append (b.append c) ∧
      a.append empty = a ∧
      (empty.append a = a ↔ a.relations.Pairwise fun m n => m.same n = false) ∧
      (do (← a.appendStrict b).appendStrict c).toOption =
        (do a.appendStrict (← b.appendStrict c)).toOption ∧
      ∀ s, (do (← a.appendStrict b).appendStrict c) = .ok s ↔
        Unrepeated a.fields (b.fields ++ c.fields) ∧ (a.append b).append c = s :=
  ⟨append_assoc a b c, append_empty a, empty_append_iff,
    toOption_eq_iff.2 fun _ => appendStrict_left_eq_ok.trans appendStrict_right_eq_ok.symm,
    fun _ => appendStrict_left_eq_ok⟩

/-- The second bracketing finds the repeated field earlier and reports it in another spelling. -/
example :
    let table (column : String) : Schema :=
      .forTable (.single (.plain "t")) [(.plain column, .bigint)]
    (do (← (table "x").appendStrict (table "X")).appendStrict (table "x")) =
        .error (.duplicateField (some (.single (.plain "t"))) (.plain "X")) ∧
      (do (table "x").appendStrict (← (table "X").appendStrict (table "x"))) =
        .error (.duplicateField (some (.single (.plain "t"))) (.plain "x")) :=
  ⟨by cbv, by cbv⟩

end Schema

end Sql
