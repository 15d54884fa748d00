import Sql.Proofs.Answers
import Sql.Resolve.Context

/-! The columns around an expression behind those near it. Each reading of a dotted name is tried in
both places before the next one, so a reading with more qualifying parts that only fits around the
expression comes before one that fits near it. -/
namespace Sql

namespace Scope

/-- What a schema answers to one reading of a name. -/
def answer (s : Schema) : List Ident × Ident × List Ident →
    Except ResolveError (Option (Field × List Ident))
  | (qualifier, column, rest) =>
    (s.find? column qualifier).map fun found => found.map fun (_, f) => (f, rest)

/-! ### First answers -/

section

variable {α : Type} {a : α} {answers more : List (Except ResolveError (Option α))}

theorem firstFound_cons (x : Except ResolveError (Option α)) : firstFound (x :: more) =
    match x with
    | .ok none => firstFound more
    | found => found := by
  match x with
  | .ok none => rfl
  | .ok (some a) => rfl
  | .error e => rfl

theorem firstFound_append : firstFound (answers ++ more) =
    match firstFound answers with
    | .ok none => firstFound more
    | found => found := by
  induction answers with
  | nil => rfl
  | cons x answers ih =>
    rw [List.cons_append, firstFound_cons, firstFound_cons, ih]
    match x with
    | .ok none => rfl
    | .ok (some a) => rfl
    | .error e => rfl

theorem firstFound_eq_some (h : firstFound answers = .ok (some a)) : ∃ before after,
    answers = before ++ .ok (some a) :: after ∧ ∀ x ∈ before, x = .ok none := by
  induction answers with
  | nil => cases h
  | cons x answers ih =>
    match x with
    | .ok none =>
      obtain ⟨before, after, rfl, hbefore⟩ := ih h
      exact ⟨.ok none :: before, after, rfl, List.forall_mem_cons.2 ⟨rfl, hbefore⟩⟩
    | .ok (some b) =>
      cases h
      exact ⟨[], answers, rfl, nofun⟩
    | .error e => cases h

theorem firstFound_eq_none : firstFound answers = .ok none ↔ ∀ x ∈ answers, x = .ok none := by
  induction answers with
  | nil => simp [firstFound]
  | cons x answers ih =>
    match x with
    | .ok none => simp [firstFound, ih]
    | .ok (some a) => simp [firstFound]
    | .error e => simp [firstFound]

end

/-! ### Readings in order -/

theorem length_of_mem_readings {parts : List Ident} :
    ∀ r ∈ readings parts, r.2.2.length < parts.length := by
  induction parts with
  | nil => exact nofun
  | cons x parts ih =>
    intro r hr
    rcases List.mem_append.1 hr with hr | hr
    · obtain ⟨r, hmem, rfl⟩ := List.mem_map.1 hr
      exact Nat.lt_succ_of_lt (ih r hmem)
    · rw [List.mem_singleton.1 hr]
      exact Nat.lt_succ_self _

/-- The readings with fewer fields come first. -/
theorem pairwise_readings (parts : List Ident) :
    (readings parts).Pairwise fun r r' => r.2.2.length < r'.2.2.length := by
  induction parts with
  | nil => exact .nil
  | cons x parts ih =>
    refine List.pairwise_append.2 ⟨List.pairwise_map.2 ih, List.pairwise_singleton .., ?_⟩
    intro r hr r' hr'
    obtain ⟨r, hmem, rfl⟩ := List.mem_map.1 hr
    rw [List.mem_singleton.1 hr']
    exact length_of_mem_readings r hmem

/-- The readings of a name that go on to fewer than so many fields. -/
def shorter (n : Name) (fields : Nat) : List (List Ident × Ident × List Ident) :=
  (readings n.parts).filter fun r => r.2.2.length < fields

/-! ### Near an expression and around it -/

variable {near outer : Schema} {context : Option Context} {n : Name} {f : Field}
  {rest : List Ident}

theorem column?_eq (s : Scope) : s.column? n =
    firstFound ((readings n.parts).flatMap fun r => (s.near :: s.outer.toList).map (answer · r)) :=
  rfl

theorem fields_of_answer {s : Schema} {r : List Ident × Ident × List Ident}
    (h : answer s r = .ok (some (f, rest))) : r.2.2 = rest := by
  obtain ⟨qualifier, column, fields⟩ := r
  cases hfind : s.find? column qualifier with
  | error e =>
    simp only [answer, hfind] at h
    cases h
  | ok found =>
    simp only [answer, hfind] at h
    cases found <;> cases h
    rfl

/-- A name that is found near the expression has a reading that is, and no shorter one. -/
theorem exists_reading (h : (Scope.mk near none context).column? n = .ok (some (f, rest))) :
    ∃ r after, readings n.parts = shorter n rest.length ++ r :: after ∧
      answer near r = .ok (some (f, rest)) ∧
      ∀ r ∈ shorter n rest.length, answer near r = .ok none := by
  have hmap : firstFound ((readings n.parts).map (answer near)) = .ok (some (f, rest)) := by
    rw [List.map_eq_flatMap]
    exact h
  obtain ⟨before, after, hsplit, hbefore⟩ := firstFound_eq_some hmap
  obtain ⟨rs, rs', hrs, rfl, htail⟩ := List.map_eq_append_iff.1 hsplit
  obtain ⟨r, rs', rfl, hr, rfl⟩ := List.map_eq_cons_iff.1 htail
  have hrest := fields_of_answer hr
  -- The readings are ordered by their fields, so those before this one are the shorter ones.
  have hpairwise := pairwise_readings n.parts
  rw [hrs] at hpairwise
  obtain ⟨-, hlater, hearlier⟩ := List.pairwise_append.1 hpairwise
  have hshorter : shorter n rest.length = rs := by
    rw [shorter, hrs, List.filter_append, List.filter_eq_self.2, List.filter_eq_nil_iff.2,
      List.append_nil]
    · intro r' hr'
      rw [← hrest]
      rcases List.mem_cons.1 hr' with rfl | hr'
      · simp
      · have hlt := (List.pairwise_cons.1 hlater).1 r' hr'
        simp only [decide_eq_true_eq]
        omega
    · intro r' hr'
      rw [← hrest]
      exact decide_eq_true (hearlier r' hr' r List.mem_cons_self)
  rw [hshorter]
  exact ⟨r, rs', hrs, hr, List.forall_mem_map.1 hbefore⟩

/-- Where nothing is found near the expression, what is around it answers. -/
theorem firstFound_around {rs : List (List Ident × Ident × List Ident)}
    (h : ∀ r ∈ rs, answer near r = .ok none) :
    firstFound (rs.flatMap fun r => [answer near r, answer outer r]) =
      firstFound (rs.map (answer outer)) := by
  induction rs with
  | nil => rfl
  | cons r rs ih =>
    obtain ⟨hr, hrs⟩ := List.forall_mem_cons.1 h
    calc firstFound (answer near r :: answer outer r :: rs.flatMap _)
        = firstFound (answer outer r :: rs.flatMap _) := by
          rw [hr]
          rfl
      _ = firstFound (answer outer r :: rs.map (answer outer)) := by
          rw [firstFound_cons, firstFound_cons, ih hrs]

/-- A field found near the expression gives way to the columns around it only where those answer a
reading with fewer fields. -/
theorem column?_around (h : (Scope.mk near none context).column? n = .ok (some (f, rest))) :
    (Scope.mk near (some outer) context).column? n =
      match firstFound ((shorter n rest.length).map (answer outer)) with
      | .ok none => .ok (some (f, rest))
      | found => found := by
  obtain ⟨r, after, hreadings, hr, hbefore⟩ := exists_reading h
  rw [column?_eq, hreadings, List.flatMap_append, firstFound_append]
  have haround : firstFound ((shorter n rest.length).flatMap fun r =>
      ((Scope.mk near (some outer) context).near ::
        (Scope.mk near (some outer) context).outer.toList).map (answer · r)) =
      firstFound ((shorter n rest.length).map (answer outer)) := firstFound_around hbefore
  rw [haround, List.flatMap_cons, List.map_cons, hr, List.cons_append, firstFound_cons]
  match firstFound ((shorter n rest.length).map (answer outer)) with
  | .ok none => rfl
  | .ok (some _) => rfl
  | .error _ => rfl

/-- The columns around an expression leave a name that is found near it alone exactly if they answer
no reading of it with fewer fields. -/
theorem column?_shadows_iff (h : (Scope.mk near none context).column? n = .ok (some (f, rest))) :
    (Scope.mk near (some outer) context).column? n = .ok (some (f, rest)) ↔
      ∀ r ∈ shorter n rest.length, answer outer r = .ok none := by
  rw [column?_around h]
  constructor
  · intro hsame
    suffices hnone : firstFound ((shorter n rest.length).map (answer outer)) = .ok none from
      List.forall_mem_map.1 (firstFound_eq_none.1 hnone)
    cases hfound : firstFound ((shorter n rest.length).map (answer outer)) with
    | error e =>
      rw [hfound] at hsame
      cases hsame
    | ok found =>
      cases found with
      | none => rfl
      | some p =>
        rw [hfound] at hsame
        cases hsame
        obtain ⟨before, after, hsplit, -⟩ := firstFound_eq_some hfound
        have hmem : .ok (some (f, rest)) ∈ (shorter n rest.length).map (answer outer) := by
          rw [hsplit]
          exact List.mem_append_right before List.mem_cons_self
        obtain ⟨r, hr, hanswer⟩ := List.mem_map.1 hmem
        have hlt := of_decide_eq_true (List.mem_filter.1 hr).2
        rw [fields_of_answer hanswer] at hlt
        exact absurd hlt (Nat.lt_irrefl _)
  · intro hnone
    rw [firstFound_eq_none.2 (List.forall_mem_map.2 hnone)]

/-- A column without fields behind it is never hidden by the columns around the expression. -/
theorem column?_shadows (h : (Scope.mk near none context).column? n = .ok (some (f, []))) :
    (Scope.mk near (some outer) context).column? n = .ok (some (f, [])) := by
  refine (column?_shadows_iff h).2 fun r hr => ?_
  exact absurd (of_decide_eq_true (List.mem_filter.1 hr).2) (Nat.not_lt_zero _)

/-- A field of a row near the expression, and a column of that name in a table around it. -/
example :
    let n : Name := ⟨[.quoted "a"], .quoted "b"⟩
    let row : Field := .named (.quoted "a") (.row [⟨some "b", .bigint⟩])
    let table := Name.single (.quoted "a")
    let near := Schema.ofFields [row]
    let outer := Schema.forTable table [(.quoted "b", .boolean)]
    (Scope.mk near none none).column? n = .ok (some (row, [.quoted "b"])) ∧
      (Scope.mk near (some outer) none).column? n =
        .ok (some (⟨some (.quoted "b"), .boolean, some table⟩, [])) :=
  ⟨rfl, rfl⟩

end Scope

end Sql
