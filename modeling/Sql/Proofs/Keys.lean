import Mathlib.Data.List.Infix
import Sql.Catalog

/-! Names are compared by the keys of their parts, and tables are found by the ends of their
names. -/
namespace Sql

theorem Ident.same_iff {x y : Ident} : x.same y = true ↔ x.key = y.key := beq_iff_eq

theorem sameList_same_iff {xs ys : List Ident} :
    sameList Ident.same xs ys = true ↔ xs.map Ident.key = ys.map Ident.key := by
  induction xs generalizing ys with
  | nil => cases ys <;> simp [sameList]
  | cons x xs ih => cases ys <;> simp [sameList, Ident.same_iff, ih]

namespace Name

variable {m n : Name} {suffix : List Ident}

/-- What names are compared by. -/
def keys (n : Name) : List String := n.parts.map Ident.key

theorem same_iff : m.same n = true ↔ m.keys = n.keys := sameList_same_iff

theorem endsWith_iff :
    n.endsWith suffix = true ↔ suffix ≠ [] ∧ suffix.map Ident.key <:+ n.keys := by
  have hlen : n.keys.length = n.length := by simp [keys, length]
  simp only [endsWith, Bool.and_eq_true, sameList_same_iff, List.map_drop, decide_eq_true_eq,
    Bool.not_eq_true', List.isEmpty_eq_false_iff, List.suffix_iff_eq_drop]
  constructor
  · rintro ⟨⟨hne, hle⟩, heq⟩
    refine ⟨hne, ?_⟩
    rw [List.length_map, hlen]
    exact heq.symm
  · rintro ⟨hne, heq⟩
    rw [List.length_map, hlen] at heq
    refine ⟨⟨hne, ?_⟩, heq.symm⟩
    have := congrArg List.length heq
    simp [keys, length] at this ⊢
    omega

theorem endsWith_of_same (h : m.same n = true) : m.endsWith n.parts = true :=
  endsWith_iff.2 ⟨by simp [parts], (same_iff.1 h) ▸ List.suffix_rfl⟩

theorem endsWith_congr (h : m.same n = true) : m.endsWith suffix = n.endsWith suffix := by
  rw [Bool.eq_iff_iff, endsWith_iff, endsWith_iff, same_iff.1 h]

end Name

namespace Catalog

variable {c : Catalog} {table n : Name} {columns : List (Ident × DataType)}

/-- A table whose name does not end with the one looked for is out of sight. -/
theorem find?_add (h : table.endsWith n.parts = false) :
    (c.add table columns).find? n = c.find? n := by
  have hn : table.same n = false := by
    by_contra hs
    simp [Name.endsWith_of_same (Bool.not_eq_false _ ▸ hs)] at h
  -- The new table replaces only tables that were out of sight too.
  have hend (t : Name × List (Ident × DataType)) :
      (t.1.endsWith n.parts && !t.1.same table) = t.1.endsWith n.parts := by
    cases hs : t.1.same table with
    | false => simp
    | true => simp [Name.endsWith_congr hs, h]
  have hsame (t : Name × List (Ident × DataType)) :
      (!t.1.same table && t.1.same n) = t.1.same n := by
    cases hs : t.1.same n with
    | false => simp
    | true => simpa [Name.endsWith_of_same hs] using hend t
  simp only [find?, add, List.find?_append, List.find?_filter, List.filter_append,
    List.filter_filter, hend]
  simp [hn, h, hsame]

theorem lookup?_add (h : table.endsWith n.parts = false) :
    (c.add table columns).lookup? n = c.lookup? n := by
  rw [lookup?, lookup?, find?_add h]

end Catalog

end Sql
