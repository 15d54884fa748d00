import Sql.Proofs.Drafts

/-! Steps about different parts of a selection do not see each other. What a draft builds depends
only on the steps about each part, in their own order. -/
namespace Sql.SelectDraft

/-- What a step is about. -/
inductive Part where
  | items | sources | bindings | filter | order | group | having | distinct | limit | offset
deriving DecidableEq

/-- Does a step about the part add something to it? Otherwise it replaces what is there. -/
def Part.accumulates : Part → Bool
  | distinct | limit | offset => false
  | _ => true

namespace Step

def part : Step → Part
  | items _ => .items
  | source _ | join .. => .sources
  | binding .. => .bindings
  | filter _ => .filter
  | order _ => .order
  | group _ => .group
  | having _ => .having
  | distinct => .distinct
  | limit _ => .limit
  | offset _ => .offset

def selected : Step → List SelectItem
  | items is => is
  | _ => []

def condition? : Step → Option Expr
  | filter e => some e
  | _ => none

/-- Why a join cannot be made, whatever relation is on its left. -/
def flaw? : Step → Option Invalid
  | join _ kind criteria => (criteria.flaw? kind).map (.joinCriteria kind)
  | _ => none

end Step

/-- The steps about one part, in order. -/
def stepsOf (part : Part) (steps : List Step) : List Step := steps.filter (·.part = part)

/-- The same steps about each part, except that of the steps that replace a count of rows only the
last one has to be the same, and that it does not matter how often the items are made distinct. -/
structure SameParts (steps steps' : List Step) : Prop where
  accumulated : ∀ part : Part, part.accumulates = true → stepsOf part steps = stepsOf part steps'
  limit : (stepsOf .limit steps).getLast? = (stepsOf .limit steps').getLast?
  offset : (stepsOf .offset steps).getLast? = (stepsOf .offset steps').getLast?
  distinct : stepsOf .distinct steps = [] ↔ stepsOf .distinct steps' = []

/-- The sources after one more source or join. A join that cannot be made leaves them alone. -/
def addSource (sources : List Relation) : Step → List Relation
  | .source relation => sources ++ [relation]
  | .join right kind criteria =>
    match sources.getLast? with
    | none => sources
    | some left =>
      match Relation.buildJoin left right kind criteria with
      | .ok joined => sources.dropLast ++ [joined]
      | .error _ => sources
  | _ => sources

/-- Conditions joined by `AND`, nested to the left. -/
def conjunction : List Expr → Option Expr
  | [] => none
  | e :: es => some (es.foldl (fun l r => .binary l .and r) e)

variable {d d' : SelectDraft} {s : Step} {steps steps' : List Step} {part : Part}

/-! ### One step -/

/-- A join changes the sources, or it is remembered as the first that could not be made. -/
theorem join_eq (d : SelectDraft) (right : Relation) (kind : JoinKind) (criteria : Criteria) :
    d.join right kind criteria =
      { d with
        sources := addSource d.sources (.join right kind criteria)
        flaw := if d.sources = [] then d.flaw
          else d.flaw.or (Step.flaw? (.join right kind criteria)) } := by
  rw [join, addSource, Step.flaw?]
  cases hleft : d.sources.getLast? with
  | none => rw [if_pos (List.getLast?_eq_none_iff.1 hleft)]
  | some left =>
    rw [if_neg fun hnil => by simp [hnil] at hleft]
    cases hflaw : criteria.flaw? kind <;> simp [Relation.buildJoin, hflaw]

theorem take_items (d : SelectDraft) (s : Step) : (d.take s).items = d.items ++ s.selected := by
  cases s with
  | items is => rfl
  | join right kind criteria => simp [take, join_eq, Step.selected]
  | _ => exact (List.append_nil d.items).symm

theorem take_sources (d : SelectDraft) (s : Step) :
    (d.take s).sources = addSource d.sources s := by
  cases s with
  | join right kind criteria => rw [take, join_eq]
  | _ => rfl

theorem take_filter (d : SelectDraft) (s : Step) :
    (d.take s).filter = (s.condition?.map (conjoin d.filter)).or d.filter := by
  cases s with
  | join right kind criteria => simp [take, join_eq, Step.condition?]
  | _ => simp [take, Step.condition?]

/-- An allowed join has a relation on its left. -/
theorem take_flaw (h : d.allows s = true) : (d.take s).flaw = d.flaw.or s.flaw? := by
  cases s with
  | join right kind criteria =>
    have hne : d.sources ≠ [] := by simpa [allows, Step.needsItems, Step.needsSource] using h
    rw [take, join_eq, if_neg hne]
  | _ => exact (Option.or_none).symm

/-! ### One part -/

/-- A draft without its other parts. -/
def only (d : SelectDraft) : Part → SelectDraft
  | .items => { empty with items := d.items, projected := d.projected }
  | .sources => { empty with sources := d.sources, flaw := d.flaw }
  | .bindings => { empty with bindings := d.bindings }
  | .filter => { empty with filter := d.filter }
  | .order => { empty with order := d.order }
  | .group => { empty with group := d.group }
  | .having => { empty with having := d.having }
  | .distinct => { empty with distinct := d.distinct }
  | .limit => { empty with limit := d.limit }
  | .offset => { empty with offset := d.offset }

/-- Drafts are equal if all their parts are. -/
theorem eq_of_only (h : ∀ part, d.only part = d'.only part) : d = d' := by
  have hitems := h .items
  have hsources := h .sources
  have hbindings := h .bindings
  have hfilter := h .filter
  have horder := h .order
  have hgroup := h .group
  have hhaving := h .having
  have hdistinct := h .distinct
  have hlimit := h .limit
  have hoffset := h .offset
  cases d
  cases d'
  simp_all [only]

/-- A step about another part is not seen. -/
theorem only_take_of_ne (h : s.part ≠ part) : (d.take s).only part = d.only part := by
  cases s with
  | join right kind criteria =>
    rw [take, join_eq]
    cases part <;> first | rfl | exact (h rfl).elim
  | _ => cases part <;> first | rfl | exact (h rfl).elim

/-- A step sees only the part it is about. -/
theorem only_take_congr (h : d.only s.part = d'.only s.part) :
    (d.take s).only s.part = (d'.take s).only s.part := by
  cases s <;> simp_all [Step.part, only, take, join_eq]

/-- A step that replaces a part does not see even that. -/
theorem only_take_of_replaces (h : s.part.accumulates = false) (d d' : SelectDraft) :
    (d.take s).only s.part = (d'.take s).only s.part := by
  cases s <;> first | rfl | cases h

/-- After some steps, one part is what the steps about it have made of it. -/
theorem only_foldl (h : d.only part = d'.only part) (steps : List Step) :
    (steps.foldl take d).only part = ((stepsOf part steps).foldl take d').only part := by
  induction steps generalizing d d' with
  | nil => exact h
  | cons s steps ih =>
    rw [stepsOf, List.filter_cons]
    by_cases hs : s.part = part
    · subst hs
      rw [if_pos (decide_eq_true rfl)]
      exact ih (only_take_congr h)
    · rw [if_neg (by simpa using hs)]
      exact ih ((only_take_of_ne hs).trans h)

/-- The last step about a part that is replaced says what it is. -/
theorem only_foldl_of_getLast? (hpart : part.accumulates = false)
    (h : (stepsOf part steps).getLast? = (stepsOf part steps').getLast?) (d : SelectDraft) :
    ((stepsOf part steps).foldl take d).only part =
      ((stepsOf part steps').foldl take d).only part := by
  cases hlast : (stepsOf part steps).getLast? with
  | none =>
    rw [List.getLast?_eq_none_iff.1 hlast, List.getLast?_eq_none_iff.1 (h.symm.trans hlast)]
  | some s =>
    obtain ⟨front, hfront⟩ := List.getLast?_eq_some_iff.1 hlast
    obtain ⟨front', hfront'⟩ := List.getLast?_eq_some_iff.1 (h.symm.trans hlast)
    have hs : s.part = part := by simpa using (List.mem_filter.1 (List.mem_of_getLast? hlast)).2
    subst hs
    rw [hfront, hfront', List.foldl_concat, List.foldl_concat]
    exact only_take_of_replaces hpart _ _

/-- There is only one step about distinct items. -/
theorem SameParts.getLast?_distinct (h : SameParts steps steps') :
    (stepsOf .distinct steps).getLast? = (stepsOf .distinct steps').getLast? := by
  have hlast (steps : List Step) (hne : stepsOf .distinct steps ≠ []) :
      (stepsOf .distinct steps).getLast? = some .distinct := by
    rw [List.getLast?_eq_some_getLast hne]
    have hmem := (List.mem_filter.1 (List.getLast_mem hne)).2
    cases hs : (stepsOf .distinct steps).getLast hne <;> rw [hs] at hmem <;>
      first | rfl | cases hmem
  by_cases hnil : stepsOf .distinct steps = []
  · rw [hnil, h.distinct.1 hnil]
  · rw [hlast steps hnil, hlast steps' (mt h.distinct.2 hnil)]

theorem SameParts.foldl_take (h : SameParts steps steps') (d : SelectDraft) :
    steps.foldl take d = steps'.foldl take d := by
  refine eq_of_only fun part => ?_
  rw [only_foldl rfl steps, only_foldl rfl steps']
  cases hpart : part.accumulates with
  | true => rw [h.accumulated part hpart]
  | false =>
    refine only_foldl_of_getLast? hpart ?_ d
    cases part with
    | distinct => exact h.getLast?_distinct
    | limit => exact h.limit
    | offset => exact h.offset
    | _ => cases hpart

/-! ### Runs -/

theorem foldl_items (d : SelectDraft) (steps : List Step) :
    (steps.foldl take d).items = d.items ++ steps.flatMap Step.selected := by
  induction steps generalizing d with
  | nil => exact (List.append_nil d.items).symm
  | cons s steps ih => rw [List.foldl_cons, ih, take_items, List.append_assoc, List.flatMap_cons]

/-- Only sources and joins matter for the sources. -/
theorem foldl_sources (d : SelectDraft) (steps : List Step) :
    (steps.foldl take d).sources = (stepsOf .sources steps).foldl addSource d.sources := by
  induction steps generalizing d with
  | nil => rfl
  | cons s steps ih =>
    rw [List.foldl_cons, ih, take_sources]
    cases s <;> rfl

theorem foldl_filter (d : SelectDraft) (steps : List Step) :
    (steps.foldl take d).filter =
      conjunction (d.filter.toList ++ steps.filterMap Step.condition?) := by
  induction steps generalizing d with
  | nil => cases hfilter : d.filter <;> simp [hfilter, conjunction]
  | cons s steps ih =>
    rw [List.foldl_cons, ih, take_filter, List.filterMap_cons]
    cases s.condition? with
    | none => rfl
    | some e => cases d.filter <;> rfl

/-- The steps of a run have all been taken. -/
theorem foldl_of_run (h : steps.foldlM step? d = some d') : steps.foldl take d = d' := by
  induction steps generalizing d with
  | nil =>
    cases h
    rfl
  | cons s steps ih =>
    rw [List.foldlM_cons] at h
    obtain ⟨d₁, hstep, hrun⟩ := Option.bind_eq_some_iff.1 h
    unfold step? at hstep
    split at hstep
    · cases hstep
      exact ih hrun
    · cases hstep

/-- The join that is remembered is the first one of the run that cannot be made. -/
theorem flaw_of_run (h : steps.foldlM step? d = some d') :
    d'.flaw = d.flaw.or (steps.findSome? Step.flaw?) := by
  induction steps generalizing d with
  | nil =>
    cases h
    exact (Option.or_none).symm
  | cons s steps ih =>
    rw [List.foldlM_cons] at h
    obtain ⟨d₁, hstep, hrun⟩ := Option.bind_eq_some_iff.1 h
    unfold step? at hstep
    split at hstep
    · rename_i hallowed
      cases hstep
      rw [ih hrun, take_flaw hallowed, Option.or_assoc, List.findSome?_cons]
      cases s.flaw? <;> rfl
    · cases hstep

/-- Two runs with the same steps about each part build the same, whatever the order of steps about
different parts. They report the first join that could not be made, and else an empty projection.
Otherwise the condition is the conjunction of all conditions in their order, and the sources are
what the sources and joins make of them. -/
theorem build_of_parts (hrun : steps.foldlM step? .empty = some d) :
    (∀ steps' d', steps'.foldlM step? .empty = some d' → SameParts steps steps' →
      d.build = d'.build) ∧
    (∀ reason, steps.findSome? Step.flaw? = some reason → d.build = .error reason) ∧
    (steps.findSome? Step.flaw? = none → steps.flatMap Step.selected = [] →
      d.build = .error .emptyProjection) ∧
    (steps.findSome? Step.flaw? = none → steps.flatMap Step.selected ≠ [] →
      ∃ q s, d.build = .ok q ∧ q.body = .select s ∧ s.items = steps.flatMap Step.selected ∧
        s.filter = conjunction (steps.filterMap Step.condition?) ∧
        s.sources = (stepsOf .sources steps).foldl addSource []) := by
  have hflaw : d.flaw = steps.findSome? Step.flaw? := flaw_of_run hrun
  have hd := foldl_of_run hrun
  have hitems : d.items = steps.flatMap Step.selected := hd ▸ foldl_items empty steps
  have hfilter : d.filter = conjunction (steps.filterMap Step.condition?) :=
    hd ▸ foldl_filter empty steps
  have hsources : d.sources = (stepsOf .sources steps).foldl addSource [] :=
    hd ▸ foldl_sources empty steps
  refine ⟨fun steps' d' hrun' hsame => ?_, fun reason hreason => ?_, fun hnone hnil => ?_,
    fun hnone hne => ?_⟩
  · rw [← hd, hsame.foldl_take, foldl_of_run hrun']
  · rw [build, hflaw, hreason]
  · rw [build, hflaw, hnone, hitems, hnil]
    rfl
  · rw [← hitems] at hne ⊢
    rw [← hfilter, ← hsources, build, hflaw, hnone, Select.build,
      if_neg (by simpa using hne)]
    exact ⟨_, _, rfl, rfl, rfl, rfl, rfl⟩

/-- A selection of two items, made by steps about its parts in turn. -/
def interleavedSteps : List Step :=
  [.items [.star none []], .source (.table (.single (.quoted "t")) none), .limit 1,
    .filter (.column (.single (.quoted "a"))),
    .join (.table (.single (.quoted "u")) none) .cross .absent, .items [.expr .null none],
    .filter (.column (.single (.quoted "b"))), .limit 2]

/-- The same selection, its steps sorted by what they are about. -/
def groupedSteps : List Step :=
  [.source (.table (.single (.quoted "t")) none),
    .join (.table (.single (.quoted "u")) none) .cross .absent, .items [.star none []],
    .items [.expr .null none], .limit 2, .filter (.column (.single (.quoted "a"))),
    .filter (.column (.single (.quoted "b")))]

theorem build_interleavedSteps :
    (interleavedSteps.foldlM step? .empty).map build =
      (groupedSteps.foldlM step? .empty).map build ∧
    ∃ d q s, interleavedSteps.foldlM step? .empty = some d ∧ d.build = .ok q ∧
      q.body = .select s ∧ s.filter = some
        (.binary (.column (.single (.quoted "a"))) .and (.column (.single (.quoted "b")))) := by
  have hrun : interleavedSteps.foldlM step? .empty = some _ := rfl
  have hspec := build_of_parts hrun
  have hsame : SameParts interleavedSteps groupedSteps := by
    refine ⟨fun part _ => ?_, rfl, rfl, ⟨fun _ => rfl, fun _ => rfl⟩⟩
    cases part <;> first | rfl | contradiction
  have hbuild := hspec.1 groupedSteps _ rfl hsame
  obtain ⟨q, s, hq, hs, -, hfilter, -⟩ :=
    hspec.2.2.2 rfl (by simp [interleavedSteps, Step.selected])
  exact ⟨congrArg some hbuild, _, q, s, rfl, hq, hs, hfilter⟩

end Sql.SelectDraft
