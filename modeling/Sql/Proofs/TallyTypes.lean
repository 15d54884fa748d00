import Sql.Proofs.Tally
import Sql.Proofs.TypeRange

/-! Names and data types hold no placeholders. -/
namespace Sql.Parser

open Token (Kind)

variable {C : Cursor → Prop} {inner : Parser DataType}

/-! ### Names -/

theorem Quiet.spelledName : Quiet C name fun n => ∀ x ∈ n.parts, x.Spelled := by
  apply Quiet.bind Quiet.spelledIdent
  intro x hx
  refine Tallies.iterate (Q := fun n : Name => ∀ x ∈ n.parts, x.Spelled) (N := fun _ => []) ?_ ?_
  · intro y hy
    rw [List.mem_singleton.1 hy]
    exact hx
  · intro n hn
    refine Tallies.look (fun _ => rfl) ?_
    intro dot
    refine Tallies.look (fun _ => rfl) ?_
    intro next
    refine Tallies.ite (fun hcond => ?_) fun _ => Quiet.pure nofun
    refine Tallies.advance ?_ (Quiet.bind Quiet.spelledIdent fun y hy => Quiet.pure ?_)
    · rintro c ⟨⟨-, hc⟩, -⟩ hq
      simp_all
    · rintro _ ⟨⟩ z hz
      rcases List.mem_append.1 hz with hz | hz
      · exact hn z hz
      · rw [List.mem_singleton.1 hz]
        exact hy

theorem Quiet.name : Quiet C name Name.Named :=
  Tallies.mono Quiet.spelledName fun _ hn x hx => (hn x hx).named

theorem Quiet.identList : Quiet C identList fun xs => xs ≠ [] ∧ ∀ x ∈ xs, x.Named :=
  Tallies.parens (Quiet.commaList Quiet.ident)

theorem Quiet.optionalIdentList : Quiet C optionalIdentList fun xs => ∀ x ∈ xs, x.Named := by
  refine Tallies.ifCheck ?_ (Quiet.pure (List.forall_mem_nil _))
  exact Tallies.mono Quiet.identList fun xs hxs => hxs.2

theorem Quiet.someIdent : Quiet C (do return some (← Parser.ident)) fun r => ∀ x ∈ r, x.Named := by
  apply Quiet.bind Quiet.ident
  intro x hx
  refine Quiet.pure ?_
  rintro _ ⟨⟩
  exact hx

theorem Quiet.optionalName : Quiet C optionalName fun r => ∀ x ∈ r, x.Named := by
  refine Quiet.branch (Quiet.eatKeyword _) Quiet.someIdent ?_
  refine Tallies.look (fun _ => rfl) ?_
  intro k
  exact Tallies.ite (fun _ => Quiet.someIdent) fun _ => Quiet.pure nofun

/-! ### Types -/

theorem Quiet.typeParameter : Quiet C typeParameter fun _ => True := by
  refine Tallies.look (fun _ => rfl) ?_
  intro k
  split
  · refine Tallies.ite (fun _ => ?_) fun _ => ?_
    · exact Tallies.look (fun _ => rfl) fun span => Tallies.failAt
    · exact Tallies.advance (Cursor.kind_ne_question nofun) (Quiet.pure trivial)
  · exact Tallies.unexpected

theorem Quiet.decimalType : Quiet C decimalType fun _ => True := by
  refine Tallies.ifCheck ?_ (Quiet.pure trivial)
  refine Tallies.look (fun _ => rfl) ?_
  intro span
  refine Tallies.advance ?_ ?_
  · rintro c ⟨⟨-, hc⟩, -⟩
    rw [hc]
    nofun
  apply Quiet.skip Quiet.typeParameter
  intro precision
  have hscale : ∀ {C : Cursor → Prop} scale, Quiet C (do
      Parser.expectSymbol .rightParen
      if precision = 0 ∨ DataType.maxPrecision < precision then
        Parser.failAt span .decimalPrecision
      else if precision < scale then Parser.failAt span .decimalScale
      else return Scalar.decimal precision scale) fun _ => True := by
    intro C scale
    refine Quiet.skip (Quiet.expectSymbol nofun) ?_
    intro _
    refine Tallies.ite (fun _ => Tallies.failAt) fun _ => ?_
    exact Tallies.ite (fun _ => Tallies.failAt) fun _ => Quiet.pure trivial
  refine Quiet.branch (Quiet.eatSymbol nofun) ?_ (hscale 0)
  exact Quiet.skip Quiet.typeParameter fun scale => hscale scale

theorem Quiet.typeLength : Quiet C typeLength fun _ => True := by
  refine Tallies.look (fun _ => rfl) ?_
  intro span
  apply Quiet.skip (Tallies.parens Quiet.typeParameter)
  intro n
  exact Tallies.ite (fun _ => Tallies.failAt) fun _ => Quiet.pure trivial

theorem Quiet.timePrecision : Quiet C timePrecision fun _ => True := by
  refine Tallies.ifCheck ?_ (Quiet.pure trivial)
  refine Tallies.look (fun _ => rfl) ?_
  intro span
  apply Quiet.skip (Tallies.parens Quiet.typeParameter)
  intro n
  exact Tallies.ite (fun _ => Tallies.failAt) fun _ => Quiet.pure trivial

theorem Quiet.timeZone : Quiet C timeZone fun _ => True := by
  refine Tallies.look (fun _ => rfl) ?_
  intro zoned
  refine Tallies.look (fun _ => rfl) ?_
  intro zoneless
  refine Tallies.look (fun _ => rfl) ?_
  intro next
  refine Tallies.ite (fun hcond => ?_) fun _ => Quiet.pure trivial
  refine Tallies.advance ?_ (Tallies.advance ?_ ?_)
  · rintro c ⟨⟨⟨-, hzoned⟩, hzoneless⟩, -⟩ hq
    simp [← hzoned, ← hzoneless, hq] at hcond
  · rintro _ ⟨c, ⟨-, hnext⟩, rfl⟩ hq
    rw [Cursor.kind_advance, hnext] at hq
    simp [hq] at hcond
  · apply Quiet.skip (Quiet.eatWord _)
    intro b
    exact Tallies.ite (fun _ => Quiet.pure trivial) fun _ => Tallies.unexpected_bind

theorem Quiet.intervalField : Quiet C intervalField fun _ => True := by
  refine Tallies.look (fun _ => rfl) ?_
  intro k
  split
  · rename_i f hf
    refine Tallies.advance ?_ (Quiet.pure trivial)
    rintro c ⟨-, hc⟩ hq
    have hword := List.find?_some hf
    simp [← hc, hq] at hword
  · exact Tallies.unexpected

theorem Quiet.intervalType (span : Span) : Quiet C (intervalType span) fun _ => True := by
  apply Quiet.skip Quiet.intervalField
  intro start
  apply Quiet.skip (Quiet.eatWord _)
  intro b
  refine Tallies.ite (fun _ => Quiet.skip Quiet.intervalField fun stop => ?_) fun _ => ?_
  · split
    · exact Quiet.pure trivial
    · exact Quiet.pure trivial
    · exact Tallies.failAt
  · exact Tallies.unexpected_bind

section

variable (h : ∀ {C : Cursor → Prop}, Quiet C inner fun _ => True)

include h

theorem Quiet.arrayType : Quiet C (arrayType inner) fun _ => True := by
  refine Quiet.branch (Quiet.eatSymbol nofun) ?_ ?_
  · apply Quiet.skip h
    intro t
    refine Quiet.skip (Quiet.expectSymbol nofun) ?_
    intro _
    exact Quiet.pure trivial
  · exact Quiet.skip (Tallies.parens h) fun t => Quiet.pure trivial

theorem Quiet.mapType : Quiet C (mapType inner) fun _ => True := by
  refine Tallies.parens (Quiet.skip h fun k => Quiet.skip (Quiet.expectSymbol nofun) fun _ => ?_)
  exact Quiet.skip h fun v => Quiet.pure trivial

theorem Quiet.lastType : Quiet C (lastType inner) fun _ => True := by
  apply Quiet.skip h
  intro t
  refine Tallies.look (fun _ => rfl) ?_
  intro k
  split
  · exact Quiet.pure trivial
  · exact Quiet.pure trivial
  · exact Tallies.unexpected

theorem Quiet.rowField : Quiet C (rowField inner) fun _ => True := by
  refine Tallies.attempt (Quiet.lastType h) (fun t _ => Quiet.pure trivial) fun e => ?_
  exact Quiet.skip Quiet.ident fun x => Quiet.skip h fun t => Quiet.pure trivial

theorem Quiet.rowType : Quiet C (rowType inner) fun _ => True :=
  Quiet.skip (Tallies.parens (Quiet.commaList (Quiet.rowField h))) fun _ => Quiet.pure trivial

theorem Quiet.typeNamed (span : Span) (word : String) :
    Quiet C (typeNamed inner span word) fun _ => True := by
  have hplain : ∀ {C : Cursor → Prop} (t : DataType), Quiet C (Pure.pure t) fun _ => True :=
    fun t => Quiet.pure trivial
  have hlength : ∀ {C : Cursor → Prop} {b : Bool},
      Quiet C (Parser.optional b Parser.typeLength) fun _ => True :=
    fun {C b} => Tallies.mono (Quiet.optional fun _ => Quiet.typeLength) fun _ _ => trivial
  unfold Parser.typeNamed
  split
  iterate 7 exact hplain _
  · exact Quiet.skip (Quiet.eatWord _) fun _ => hplain _
  · exact Quiet.skip Quiet.decimalType fun s => hplain _
  · exact Quiet.skip Quiet.decimalType fun s => hplain _
  · exact Tallies.look (fun _ => rfl) fun b => Quiet.skip hlength fun n => hplain _
  · exact Tallies.look (fun _ => rfl) fun b => Quiet.skip hlength fun n => hplain _
  iterate 4 exact hplain _
  · exact Quiet.skip Quiet.timePrecision fun p => Quiet.skip Quiet.timeZone fun z => hplain _
  · exact Quiet.skip Quiet.timePrecision fun p => Quiet.skip Quiet.timeZone fun z => hplain _
  · exact Quiet.skip (Quiet.intervalType span) fun s => hplain _
  · exact Quiet.arrayType h
  · exact Quiet.mapType h
  · exact Quiet.rowType h
  · exact Tallies.failAt

theorem Quiet.dataType : Quiet C (dataType inner) fun _ => True := by
  refine Tallies.look (fun _ => rfl) ?_
  intro span
  refine Tallies.look (fun _ => rfl) ?_
  intro k
  split
  · refine Tallies.ite (fun _ => Tallies.unexpected) fun _ => ?_
    exact Tallies.advance (Cursor.kind_ne_question nofun) (Quiet.typeNamed h span _)
  · exact Tallies.unexpected

end

end Sql.Parser
