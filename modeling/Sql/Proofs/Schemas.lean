import Sql.Proofs.Answers
import Sql.Resolve.Combine

/-! What the operations on schemas return. -/
namespace Sql.Schema

variable {s : Schema} {fields : List Field}

/-! ### Relations -/

/-- Different names are all added. -/
theorem foldl_addRelation {before names : List Name}
    (h : (before ++ names).Pairwise fun m n => m.same n = false) :
    names.foldl addRelation before = before ++ names := by
  induction names generalizing before with
  | nil => simp
  | cons n names ih =>
    have hn : ∀ m ∈ before, m.same n = false := by
      intro m hm
      exact (List.pairwise_append.1 h).2.2 m hm n List.mem_cons_self
    have hadd : addRelation before n = before ++ [n] := by
      rw [addRelation, if_neg]
      simpa using hn
    rw [List.append_cons] at h
    rw [List.foldl_cons, hadd, ih h, ← List.append_cons]

theorem of_eq {names : List Name} (h : names.Pairwise fun m n => m.same n = false) :
    Schema.of fields names = ⟨fields, names⟩ := by
  rw [← List.nil_append names] at h
  rw [Schema.of, foldl_addRelation h, List.nil_append]

/-- No relation has the name of one of the other side. -/
def Disjoint (l r : Schema) : Prop :=
  ∀ m ∈ l.relations, ∀ n ∈ r.relations, m.same n = false

theorem checkDisjoint_yields (l r : Schema) :
    Yields (fun _ => l.Disjoint r) (l.checkDisjoint r) := by
  unfold checkDisjoint
  split
  · exact .error _
  · rename_i hnone
    refine .ok fun m hm n hn => ?_
    have hany := List.find?_eq_none.1 hnone n hn
    simpa using fun hsame => hany (List.any_eq_true.2 ⟨m, hm, hsame⟩)

/-! ### Fields -/

theorem mem_of_mem_except {used : List Nat} {f : Field} (hf : f ∈ s.except used) :
    f ∈ s.fields := by
  obtain ⟨⟨g, i⟩, hg, rfl⟩ := List.mem_map.1 hf
  exact List.fst_mem_of_mem_zipIdx (List.mem_filter.1 hg).1

theorem withSource_withSource (s : Schema) (m n : Name) :
    (s.withSource m).withSource n = s.withSource n := by
  simp [withSource]

theorem extend?_yields (before fields : List Field) :
    Yields (· = before ++ fields) (extend? before fields) := by
  induction fields generalizing before with
  | nil => exact .ok (List.append_nil before).symm
  | cons f fields ih =>
    have hrest : Yields (· = before ++ f :: fields) (extend? (before ++ [f]) fields) := by
      rw [List.append_cons]
      exact ih (before ++ [f])
    rw [extend?]
    split
    · split
      · exact .error _
      · exact hrest
    · exact hrest

/-- A relation is refused for its repeated fields, or it stays as it is. -/
theorem appendStrict_yields (s : Schema) (n : Name) :
    Yields (· = s.withSource n) (empty.appendStrict (s.withSource n)) := by
  refine (extend?_yields _ _).bind fun fields hfields => .ok ?_
  rw [hfields]
  rfl

end Sql.Schema
