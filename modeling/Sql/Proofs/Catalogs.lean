import Sql.Proofs.Keys

/-! Catalogs that are filled by definitions one after another. What a name refers to depends on the
last definition under each name only. -/
namespace Sql

namespace Name

variable {k m n : Name}

theorem same_refl (n : Name) : n.same n = true := same_iff.2 rfl

theorem same_symm (h : m.same n = true) : n.same m = true := same_iff.2 (same_iff.1 h).symm

theorem same_trans (h : k.same m = true) (h' : m.same n = true) : k.same n = true :=
  same_iff.2 ((same_iff.1 h).trans (same_iff.1 h'))

theorem same_congr (h : m.same n = true) (k : Name) : k.same m = k.same n := by
  rw [Bool.eq_iff_iff, same_iff, same_iff, same_iff.1 h]

end Name

namespace Catalog

/-- A table as it is defined: its name and its columns. -/
abbrev Definition := Name × List (Ident × DataType)

/-- Makes the definitions in order. -/
def addAll (c : Catalog) (calls : List Definition) : Catalog :=
  calls.foldl (fun c t => c.add t.1 t.2) c

/-- The last definition under a name. -/
def last? (calls : List Definition) (n : Name) : Option Definition :=
  calls.reverse.find? (·.1.same n)

/-- What a name refers to once the definitions have been made: the last one under this very name
or, without one, the last one under the only name that ends with it. -/
def Denotes (calls : List Definition) (n : Name) (t : Definition) : Prop :=
  last? calls n = some t ∨
    (last? calls n = none ∧ last? calls t.1 = some t ∧ t.1.endsWith n.parts = true ∧
      ∀ u ∈ calls, u.1.endsWith n.parts = true → u.1.same t.1 = true)

/-- Equality up to the spelling of names. -/
def sameDefinition (t u : Definition) : Bool :=
  t.1.same u.1 && sameList (fun x y => x.1.same y.1 && x.2 == y.2) t.2 u.2

variable {c : Catalog} {calls calls' : List Definition} {m n : Name} {t u : Definition}

/-! ### The last definition under a name -/

theorem last?_concat (calls : List Definition) (t : Definition) (n : Name) :
    last? (calls ++ [t]) n = if t.1.same n then some t else last? calls n := by
  rw [last?, List.reverse_append, List.reverse_singleton, List.singleton_append, List.find?_cons]
  cases t.1.same n <;> rfl

theorem last?_congr (h : m.same n = true) (calls : List Definition) :
    last? calls m = last? calls n := by
  simp only [last?, Name.same_congr h]

theorem mem_of_last? (h : last? calls n = some t) : t ∈ calls :=
  List.mem_reverse.1 (List.mem_of_find?_eq_some h)

theorem same_of_last? (h : last? calls n = some t) : t.1.same n = true :=
  List.find?_some (p := fun u : Definition => u.1.same n) h

/-- Whatever is last under some name is last under its own. -/
theorem last?_self (h : last? calls n = some t) : last? calls t.1 = some t := by
  rw [last?_congr (same_of_last? h), h]

theorem exists_last? (h : t ∈ calls) : ∃ u, last? calls t.1 = some u := by
  rw [← Option.isSome_iff_exists, last?, List.find?_isSome]
  exact ⟨t, List.mem_reverse.2 h, Name.same_refl t.1⟩

/-! ### The registered tables -/

theorem addAll_concat (c : Catalog) (calls : List Definition) (t : Definition) :
    c.addAll (calls ++ [t]) = (c.addAll calls).add t.1 t.2 := by
  rw [addAll, List.foldl_concat, addAll]

theorem pairwise_add (h : c.tables.Pairwise fun t u => t.1.same u.1 = false) (t : Definition) :
    (c.add t.1 t.2).tables.Pairwise fun t u => t.1.same u.1 = false := by
  refine List.pairwise_append.2 ⟨h.filter _, List.pairwise_singleton .., fun u hu v hv => ?_⟩
  rw [List.mem_singleton.1 hv]
  simpa using (List.mem_filter.1 hu).2

/-- No two of the registered names are the same. -/
theorem pairwise_addAll (calls : List Definition) :
    (empty.addAll calls).tables.Pairwise fun t u => t.1.same u.1 = false := by
  induction calls using List.reverseRecOn with
  | nil => exact .nil
  | append_singleton calls t ih =>
    rw [addAll_concat]
    exact pairwise_add ih t

theorem find?_same_add (c : Catalog) (t : Definition) (n : Name) :
    (c.add t.1 t.2).tables.find? (·.1.same n) =
      if t.1.same n then some t else c.tables.find? (·.1.same n) := by
  have hkeep (h : t.1.same n = false) :
      (fun u : Definition => !u.1.same t.1 && u.1.same n) = fun u => u.1.same n := by
    funext u
    cases hu : u.1.same t.1 with
    | false => rfl
    | true =>
      cases hn : u.1.same n with
      | false => rfl
      | true => simp [Name.same_trans (Name.same_symm hu) hn] at h
  simp only [add, List.find?_append, List.find?_filter]
  cases h : t.1.same n with
  | false => simp [hkeep h, h]
  | true =>
    have hnone : c.tables.find? (fun u => !u.1.same t.1 && u.1.same n) = none := by
      simp [← Name.same_congr h]
    simp [hnone, h]

/-- The table of a name is the one defined last. -/
theorem find?_same_addAll (calls : List Definition) (n : Name) :
    (empty.addAll calls).tables.find? (·.1.same n) = last? calls n := by
  induction calls using List.reverseRecOn with
  | nil => rfl
  | append_singleton calls t ih => rw [addAll_concat, find?_same_add, ih, last?_concat]

/-- Among tables of different names, the first one of a name is the only one. -/
theorem find?_same_eq_some (h : c.tables.Pairwise fun t u => t.1.same u.1 = false)
    (t : Definition) : c.tables.find? (·.1.same t.1) = some t ↔ t ∈ c.tables := by
  constructor
  · exact List.mem_of_find?_eq_some
  · intro ht
    obtain ⟨front, back, hsplit⟩ := List.append_of_mem ht
    rw [hsplit] at h ⊢
    refine List.find?_eq_some_iff_append.2 ⟨Name.same_refl t.1, front, back, rfl, fun u hu => ?_⟩
    simp [(List.pairwise_append.1 h).2.2 u hu t List.mem_cons_self]

theorem mem_addAll (calls : List Definition) (t : Definition) :
    t ∈ (empty.addAll calls).tables ↔ last? calls t.1 = some t := by
  rw [← find?_same_eq_some (pairwise_addAll calls), find?_same_addAll]

/-! ### Looking names up -/

/-- A list of tables of different names has one element if all its names are the same. -/
theorem eq_singleton_of_same {tables : List Definition}
    (h : tables.Pairwise fun t u => t.1.same u.1 = false) (ht : t ∈ tables)
    (hsame : ∀ u ∈ tables, u.1.same t.1 = true) : tables = [t] := by
  cases tables with
  | nil => cases ht
  | cons u rest =>
    cases rest with
    | nil => rw [List.mem_singleton.1 ht]
    | cons v rest =>
      have huv := (List.pairwise_cons.1 h).1 v List.mem_cons_self
      have hu := hsame u List.mem_cons_self
      have hv := hsame v (List.mem_cons_of_mem _ List.mem_cons_self)
      rw [Name.same_trans hu (Name.same_symm hv)] at huv
      cases huv

/-- One table is left that ends with the name: it is registered, and all that end with the name
have been defined under the same one. -/
theorem filter_endsWith_addAll :
    ((empty.addAll calls).tables.filter fun u => u.1.endsWith n.parts) = [t] ↔
      last? calls t.1 = some t ∧ t.1.endsWith n.parts = true ∧
        ∀ u ∈ calls, u.1.endsWith n.parts = true → u.1.same t.1 = true := by
  constructor
  · intro h
    have ht : t ∈ (empty.addAll calls).tables.filter fun u => u.1.endsWith n.parts := by simp [h]
    refine ⟨(mem_addAll calls t).1 (List.mem_filter.1 ht).1, (List.mem_filter.1 ht).2, ?_⟩
    intro u hu hend
    obtain ⟨v, hv⟩ := exists_last? hu
    have hvu := same_of_last? hv
    have hmem : v ∈ (empty.addAll calls).tables.filter fun u => u.1.endsWith n.parts :=
      List.mem_filter.2 ⟨(mem_addAll calls v).2 (last?_self hv), by rwa [Name.endsWith_congr hvu]⟩
    rw [h, List.mem_singleton] at hmem
    rw [← hmem]
    exact Name.same_symm hvu
  · rintro ⟨hlast, hend, hall⟩
    have hmem := (mem_addAll calls t).2 hlast
    refine eq_singleton_of_same ((pairwise_addAll calls).filter _)
      (List.mem_filter.2 ⟨hmem, hend⟩) fun u hu => ?_
    obtain ⟨hu, hendu⟩ := List.mem_filter.1 hu
    exact hall u (mem_of_last? ((mem_addAll calls u).1 hu)) hendu

theorem find?_addAll : (empty.addAll calls).find? n = some t ↔ Denotes calls n t := by
  rw [find?, find?_same_addAll, Denotes]
  cases hlast : last? calls n with
  | some u => simp
  | none =>
    simp only [Option.none_or, reduceCtorEq, false_or, true_and]
    rw [← filter_endsWith_addAll]
    split <;> simp_all

theorem lookup?_addAll {s : Schema} :
    (empty.addAll calls).lookup? n = some s ↔
      ∃ t, Denotes calls n t ∧ Schema.forTable t.1 t.2 = s := by
  simp only [lookup?, Option.map_eq_some_iff, find?_addAll]

/-! ### Definitions that agree -/

theorem sameOption_iff {α : Type} {same : α → α → Bool} {x y : Option α} :
    sameOption same x y = true ↔
      (∀ a, x = some a → ∃ b, y = some b ∧ same a b = true) ∧
        ∀ b, y = some b → ∃ a, x = some a ∧ same a b = true := by
  cases x <;> cases y <;> simp [sameOption]

/-- Under every name that one of the sequences defines, both have a last definition, and the two are
alike. -/
def Agree (same : Definition → Definition → Bool) (calls calls' : List Definition) : Prop :=
  ∀ t ∈ calls ++ calls', sameOption same (last? calls t.1) (last? calls' t.1) = true

instance (same : Definition → Definition → Bool) (calls calls' : List Definition) :
    Decidable (Agree same calls calls') :=
  inferInstanceAs (Decidable (∀ t ∈ calls ++ calls', _))

namespace Agree

variable {same : Definition → Definition → Bool}

theorem symm (h : Agree same calls calls') : Agree (fun t u => same u t) calls' calls := by
  intro t ht
  have hlast := sameOption_iff.1 (h t (List.mem_append.2 (List.mem_append.1 ht).symm))
  exact sameOption_iff.2 hlast.symm

theorem last? (h : Agree same calls calls') (hlast : last? calls n = some t) :
    ∃ u, Catalog.last? calls' n = some u ∧ same t u = true := by
  have hself := h t (List.mem_append_left _ (mem_of_last? hlast))
  rw [← last?_congr (same_of_last? hlast) calls']
  exact (sameOption_iff.1 hself).1 t (last?_self hlast)

theorem denotes (h : Agree same calls calls')
    (hname : ∀ t u, same t u = true → t.1.same u.1 = true) (ht : Denotes calls n t) :
    ∃ u, Denotes calls' n u ∧ same t u = true := by
  rcases ht with hlast | ⟨hnone, hlast, hend, hall⟩
  · obtain ⟨u, hu, hsame⟩ := h.last? hlast
    exact ⟨u, .inl hu, hsame⟩
  · obtain ⟨u, hu, hsame⟩ := h.last? hlast
    have htu := hname t u hsame
    refine ⟨u, .inr ⟨?_, last?_self hu, by rwa [← Name.endsWith_congr htu], ?_⟩, hsame⟩
    · refine Option.eq_none_iff_forall_ne_some.2 fun v hv => ?_
      obtain ⟨w, hw, -⟩ := h.symm.last? hv
      rw [hnone] at hw
      cases hw
    · intro v hv hendv
      obtain ⟨_, hlastv⟩ := exists_last? hv
      -- The other sequence defines a table of this name too, which ends the same way.
      obtain ⟨w, hw, -⟩ := h.symm.last? hlastv
      have hwv := same_of_last? hw
      have hwt := hall w (mem_of_last? hw) (by rwa [Name.endsWith_congr hwv])
      exact Name.same_trans (Name.same_symm hwv) (Name.same_trans hwt htu)

theorem find? (h : Agree same calls calls')
    (hname : ∀ t u, same t u = true → t.1.same u.1 = true) (n : Name) :
    sameOption same ((empty.addAll calls).find? n) ((empty.addAll calls').find? n) = true := by
  refine sameOption_iff.2 ⟨fun t ht => ?_, fun u hu => ?_⟩
  · obtain ⟨u, hu, hsame⟩ := h.denotes hname (find?_addAll.1 ht)
    exact ⟨u, find?_addAll.2 hu, hsame⟩
  · have hname' (t u : Definition) (ht : same u t = true) := Name.same_symm (hname u t ht)
    obtain ⟨t, ht, hsame⟩ := h.symm.denotes hname' (find?_addAll.1 hu)
    exact ⟨t, find?_addAll.2 ht, hsame⟩

end Agree

theorem sameList_map {α β : Type} (same : β → β → Bool) (f g : α → β) (xs ys : List α) :
    sameList same (xs.map f) (ys.map g) = sameList (fun x y => same (f x) (g y)) xs ys := by
  induction xs generalizing ys with
  | nil => cases ys <;> rfl
  | cons x xs ih =>
    cases ys with
    | nil => rfl
    | cons y ys => simp [sameList, ih]

/-- Definitions that are alike give schemas that are alike. -/
theorem forTable_same (h : sameDefinition t u = true) :
    (Schema.forTable t.1 t.2).same (Schema.forTable u.1 u.2) = true := by
  obtain ⟨hname, hcolumns⟩ := Bool.and_eq_true_iff.1 h
  have hof (fields : List Field) (n : Name) : Schema.of fields [n] = ⟨fields, [n]⟩ := rfl
  simpa [Schema.forTable, hof, Schema.same, sameList_map, sameList, sameOption, hname]
    using hcolumns

theorem lookup?_same (h : Agree sameDefinition calls calls') (n : Name) :
    sameOption Schema.same ((empty.addAll calls).lookup? n) ((empty.addAll calls').lookup? n) =
      true := by
  have hfind := sameOption_iff.1 (h.find? (fun _ _ ht => (Bool.and_eq_true_iff.1 ht).1) n)
  simp only [sameOption_iff, lookup?, Option.map_eq_some_iff]
  constructor
  · rintro _ ⟨t, ht, rfl⟩
    obtain ⟨u, hu, hsame⟩ := hfind.1 t ht
    exact ⟨_, ⟨u, hu, rfl⟩, forTable_same hsame⟩
  · rintro _ ⟨u, hu, rfl⟩
    obtain ⟨t, ht, hsame⟩ := hfind.2 u hu
    exact ⟨_, ⟨t, ht, rfl⟩, forTable_same hsame⟩

/-- Equal definitions give equal schemas. -/
theorem lookup?_eq (h : ∀ t ∈ calls ++ calls', last? calls t.1 = last? calls' t.1) (n : Name) :
    (empty.addAll calls).lookup? n = (empty.addAll calls').lookup? n := by
  have hiff (x y : Option Definition) :
      sameOption (fun t u => decide (t = u)) x y = true ↔ x = y := by
    cases x <;> cases y <;> simp [sameOption]
  have hagree : Agree (fun t u => decide (t = u)) calls calls' := fun t ht => (hiff _ _).2 (h t ht)
  have hname (t u : Definition) (htu : decide (t = u) = true) : t.1.same u.1 = true :=
    of_decide_eq_true htu ▸ Name.same_refl t.1
  rw [lookup?, lookup?, (hiff _ _).1 (hagree.find? hname n)]

/-- The registered names are pairwise different. A name refers to the last table defined under it
or, if there is none, to the last one under the only name that ends with it, and otherwise to
nothing. So two sequences of definitions that agree on the last one of each name answer every name
with equal schemas, up to the spelling of names if they agree only up to that. -/
theorem lookup?_of_last_definitions (calls calls' : List Definition) :
    ((empty.addAll calls).tables.Pairwise fun t u => t.1.same u.1 = false) ∧
      (∀ n s, (empty.addAll calls).lookup? n = some s ↔
        ∃ t, Denotes calls n t ∧ Schema.forTable t.1 t.2 = s) ∧
      (Agree sameDefinition calls calls' → ∀ n,
        sameOption Schema.same ((empty.addAll calls).lookup? n)
          ((empty.addAll calls').lookup? n) = true) ∧
      ((∀ t ∈ calls ++ calls', last? calls t.1 = last? calls' t.1) → ∀ n,
        (empty.addAll calls).lookup? n = (empty.addAll calls').lookup? n) :=
  ⟨pairwise_addAll calls, fun _ _ => lookup?_addAll, lookup?_same, lookup?_eq⟩

/-- The second definition of `"a"."t"` replaces the first one. -/
def redefinedTable : List Definition :=
  [(⟨[.quoted "a"], .quoted "t"⟩, []), (.single (.quoted "t"), []),
    (⟨[.quoted "a"], .quoted "t"⟩, [(.quoted "x", .bigint)])]

/-- The definitions of `redefinedTable` that are not replaced, in another order. -/
def lastDefinitions : List Definition :=
  [(⟨[.quoted "a"], .quoted "t"⟩, [(.quoted "x", .bigint)]), (.single (.quoted "t"), [])]

theorem lookup?_redefinedTable :
    ∀ n, (empty.addAll redefinedTable).lookup? n = (empty.addAll lastDefinitions).lookup? n ∧
      sameOption Schema.same ((empty.addAll redefinedTable).lookup? n)
        ((empty.addAll lastDefinitions).lookup? n) = true := by
  intro n
  obtain ⟨-, -, hsame, hequal⟩ := lookup?_of_last_definitions redefinedTable lastDefinitions
  exact ⟨hequal (by decide +kernel) n, hsame (by decide +kernel) n⟩

end Catalog

end Sql
