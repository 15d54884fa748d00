import Sql.Proofs.Depth
import Sql.Proofs.Good
import Sql.Proofs.Outcome

/-! Reading lists that are separated by commas. -/
namespace Sql

open Token (Kind)
open Token.Kind (joined commas)

namespace Parser

variable {α : Type} {item : Parser α} {tokens : α → List Kind} {nodes : α → List Node}
  {fits : α → Prop} {P : Prop} {closes : List Kind → Prop} {xs : List α} {c : Cursor}
  {rest : List Kind} {m : Nat}

/-- The item is read in front of a comma and in front of whatever `closes` admits. -/
def ReadsItem (item : Parser α) (tokens : α → List Kind) (nodes : α → List Node)
    (fits : α → Prop) (P : Prop) (closes : List Kind → Prop) (x : α) : Prop :=
  ∀ (c : Cursor) (m : Nat) (rest : List Kind), Ready m (nodes x) → c.At (tokens x ++ rest) m →
    Kind.next rest = .symbol .comma ∨ closes rest →
    Gives (fits x) P item c x rest (m + marks (nodes x))

theorem moreItems_gives (hitem : ∀ x ∈ xs, ReadsItem item tokens nodes fits P closes x)
    (hclose : closes rest) (hrest : Kind.next rest ≠ .symbol .comma) {bound : Nat}
    (hb : xs.length ≤ bound) (hready : Ready m (xs.flatMap nodes))
    (hc : c.At (xs.flatMap (fun x => .symbol .comma :: tokens x) ++ rest) m) :
    Gives (∀ x ∈ xs, fits x) P (moreItems item bound) c xs rest
      (m + marks (xs.flatMap nodes)) := by
  induction xs generalizing c m bound with
  | nil =>
    have hc : c.At rest m := by simpa using hc
    refine .ok (by simp) ?_ hc
    cases bound with
    | zero => rfl
    | succ bound =>
      rw [moreItems, eatSymbol, bind_ok (eat_of_ne hc hrest)]
      rfl
  | cons x xs ih =>
    cases bound with
    | zero => simp at hb
    | succ bound =>
      rw [moreItems]
      simp only [List.flatMap_cons, List.cons_append, List.append_assoc] at hc hready ⊢
      have hr := ready_append.1 hready
      refine .step (eat_of_eq hc) ?_
      simp only [if_true]
      have hx := hitem x (by simp) c.advance m _ hr.1 hc.advance
        (by cases xs with
          | nil => exact .inr hclose
          | cons => exact .inl rfl)
      refine (hx.seq id fun c' hc' => ?_).congr List.forall_mem_cons
      have hxs := ih (fun y hy => hitem y (by simp [hy])) (by simpa using hb) hr.2 hc'
      refine hxs.last fun c'' hc'' => ⟨c'', rfl, ?_⟩
      simpa [Nat.add_assoc] using hc''

theorem length_le_flatMap (xs : List α) :
    xs.length ≤ (xs.flatMap fun x => Kind.symbol .comma :: tokens x).length := by
  induction xs with
  | nil => simp
  | cons y ys ih =>
    simp only [List.length_cons, List.flatMap_cons, List.length_append]
    omega

theorem commaList_gives (hne : xs ≠ [])
    (hitem : ∀ x ∈ xs, ReadsItem item tokens nodes fits P closes x)
    (hclose : closes rest) (hrest : Kind.next rest ≠ .symbol .comma)
    (hready : Ready m (xs.flatMap nodes)) (hc : c.At (commas (xs.map tokens) ++ rest) m) :
    Gives (∀ x ∈ xs, fits x) P (commaList item) c xs rest
      (m + marks (xs.flatMap nodes)) := by
  obtain ⟨x, xs, rfl⟩ := List.exists_cons_of_ne_nil hne
  simp only [List.map_cons, joined, List.flatMap_map, List.append_assoc, List.flatMap_cons]
    at hc hready ⊢
  have hr := ready_append.1 hready
  have hx := hitem x (by simp) c m _ hr.1 hc
    (by cases xs with
      | nil => exact .inr hclose
      | cons => exact .inl rfl)
  unfold commaList
  refine (hx.seq id fun c' hc' => ?_).congr List.forall_mem_cons
  refine .step (p := get) (a := c') rfl ?_
  have hb : xs.length ≤ c'.ahead.length := by
    rw [hc'.length, List.length_append]
    exact Nat.le_add_right_of_le (length_le_flatMap xs)
  have hxs := moreItems_gives (fun y hy => hitem y (by simp [hy])) hclose hrest hb hr.2 hc'
  refine hxs.last fun c'' hc'' => ⟨c'', rfl, ?_⟩
  simpa [Nat.add_assoc] using hc''

end Parser

/-! ### Lists in trees are mapped one by one -/

section

variable {n : Nat}

theorem RowField.tokenLists_eq (fs : List RowField) :
    RowField.tokenLists fs = fs.map RowField.tokens := by
  induction fs with
  | nil => rfl
  | cons f fs ih => simp [RowField.tokenLists, ih]

theorem RowField.allInRange_iff (fs : List RowField) :
    RowField.AllInRange fs ↔ ∀ f ∈ fs, f.InRange := by
  induction fs with
  | nil => simp [RowField.AllInRange]
  | cons f fs ih => simp [RowField.AllInRange, ih]

theorem RowField.depthAll_le (fs : List RowField) :
    RowField.depthAll fs ≤ n ↔ ∀ f ∈ fs, f.depth ≤ n := by
  induction fs with
  | nil => simp [RowField.depthAll]
  | cons f fs ih => rw [RowField.depthAll, Nat.max_le, ih, List.forall_mem_cons]

theorem Expr.tokenLists_eq (es : List Expr) : Expr.tokenLists es = es.map Expr.tokens := by
  induction es with
  | nil => rfl
  | cons e es ih => simp [Expr.tokenLists, ih]

theorem Expr.nodesAll_eq (es : List Expr) : Expr.nodesAll es = es.flatMap Expr.nodes := by
  induction es with
  | nil => rfl
  | cons e es ih => simp [Expr.nodesAll, ih]

theorem Expr.depthAll_le (es : List Expr) : Expr.depthAll es ≤ n ↔ ∀ e ∈ es, e.depth ≤ n := by
  induction es with
  | nil => simp [Expr.depthAll]
  | cons e es ih => rw [Expr.depthAll, Nat.max_le, ih, List.forall_mem_cons]

theorem OrderTerm.tokenLists_eq (ts : List OrderTerm) :
    OrderTerm.tokenLists ts = ts.map OrderTerm.tokens := by
  induction ts with
  | nil => rfl
  | cons t ts ih => simp [OrderTerm.tokenLists, ih]

theorem OrderTerm.nodesAll_eq (ts : List OrderTerm) :
    OrderTerm.nodesAll ts = ts.flatMap OrderTerm.nodes := by
  induction ts with
  | nil => rfl
  | cons t ts ih => simp [OrderTerm.nodesAll, ih]

theorem OrderTerm.depthAll_le (ts : List OrderTerm) :
    OrderTerm.depthAll ts ≤ n ↔ ∀ t ∈ ts, t.depth ≤ n := by
  induction ts with
  | nil => simp [OrderTerm.depthAll]
  | cons t ts ih => rw [OrderTerm.depthAll, Nat.max_le, ih, List.forall_mem_cons]

theorem Expr.setTokenLists_eq (sets : List (List Expr)) : Expr.setTokenLists sets =
    sets.map fun es => Token.Kind.parens (commas (es.map Expr.tokens)) := by
  induction sets with
  | nil => rfl
  | cons es sets ih => simp [Expr.setTokenLists, Expr.tokenLists_eq, ih]

theorem Expr.setNodes_eq (sets : List (List Expr)) :
    Expr.setNodes sets = sets.flatMap fun es => es.flatMap Expr.nodes := by
  induction sets with
  | nil => rfl
  | cons es sets ih => simp [Expr.setNodes, Expr.nodesAll_eq, ih]

theorem Expr.setDepth_le (sets : List (List Expr)) :
    Expr.setDepth sets ≤ n ↔ ∀ es ∈ sets, ∀ e ∈ es, e.depth ≤ n := by
  induction sets with
  | nil => simp [Expr.setDepth]
  | cons es sets ih =>
    rw [Expr.setDepth, Nat.max_le, Expr.depthAll_le, ih, List.forall_mem_cons]

theorem Relation.tokenLists_eq (rs : List Relation) :
    Relation.tokenLists rs = rs.map Relation.tokens := by
  induction rs with
  | nil => rfl
  | cons r rs ih => simp [Relation.tokenLists, ih]

theorem Relation.nodesAll_eq (rs : List Relation) :
    Relation.nodesAll rs = rs.flatMap Relation.nodes := by
  induction rs with
  | nil => rfl
  | cons r rs ih => simp [Relation.nodesAll, ih]

theorem Relation.depthAll_le (rs : List Relation) :
    Relation.depthAll rs ≤ n ↔ ∀ r ∈ rs, r.depth ≤ n := by
  induction rs with
  | nil => simp [Relation.depthAll]
  | cons r rs ih => rw [Relation.depthAll, Nat.max_le, ih, List.forall_mem_cons]

theorem Cte.tokenLists_eq (cs : List Cte) : Cte.tokenLists cs = cs.map Cte.tokens := by
  induction cs with
  | nil => rfl
  | cons c cs ih => simp [Cte.tokenLists, ih]

theorem Cte.nodesAll_eq (cs : List Cte) : Cte.nodesAll cs = cs.flatMap Cte.nodes := by
  induction cs with
  | nil => rfl
  | cons c cs ih => simp [Cte.nodesAll, ih]

theorem Cte.depthAll_le (cs : List Cte) : Cte.depthAll cs ≤ n ↔ ∀ c ∈ cs, c.depth ≤ n := by
  induction cs with
  | nil => simp [Cte.depthAll]
  | cons c cs ih => rw [Cte.depthAll, Nat.max_le, ih, List.forall_mem_cons]

theorem SelectItem.tokenLists_eq (is : List SelectItem) :
    SelectItem.tokenLists is = is.map SelectItem.tokens := by
  induction is with
  | nil => rfl
  | cons i is ih => simp [SelectItem.tokenLists, ih]

theorem SelectItem.nodesAll_eq (is : List SelectItem) :
    SelectItem.nodesAll is = is.flatMap SelectItem.nodes := by
  induction is with
  | nil => rfl
  | cons i is ih => simp [SelectItem.nodesAll, ih]

theorem SelectItem.depthAll_le (is : List SelectItem) :
    SelectItem.depthAll is ≤ n ↔ ∀ i ∈ is, i.depth ≤ n := by
  induction is with
  | nil => simp [SelectItem.depthAll]
  | cons i is ih => rw [SelectItem.depthAll, Nat.max_le, ih, List.forall_mem_cons]

theorem GroupingElement.tokenLists_eq (es : List GroupingElement) :
    GroupingElement.tokenLists es = es.map GroupingElement.tokens := by
  induction es with
  | nil => rfl
  | cons e es ih => simp [GroupingElement.tokenLists, ih]

theorem GroupingElement.nodesAll_eq (es : List GroupingElement) :
    GroupingElement.nodesAll es = es.flatMap GroupingElement.nodes := by
  induction es with
  | nil => rfl
  | cons e es ih => simp [GroupingElement.nodesAll, ih]

theorem GroupingElement.depthAll_le (es : List GroupingElement) :
    GroupingElement.depthAll es ≤ n ↔ ∀ e ∈ es, e.depth ≤ n := by
  induction es with
  | nil => simp [GroupingElement.depthAll]
  | cons e es ih => rw [GroupingElement.depthAll, Nat.max_le, ih, List.forall_mem_cons]

theorem NamedWindow.tokenLists_eq (ws : List NamedWindow) :
    NamedWindow.tokenLists ws = ws.map NamedWindow.tokens := by
  induction ws with
  | nil => rfl
  | cons w ws ih => simp [NamedWindow.tokenLists, ih]

theorem NamedWindow.nodesAll_eq (ws : List NamedWindow) :
    NamedWindow.nodesAll ws = ws.flatMap NamedWindow.nodes := by
  induction ws with
  | nil => rfl
  | cons w ws ih => simp [NamedWindow.nodesAll, ih]

theorem NamedWindow.depthAll_le (ws : List NamedWindow) :
    NamedWindow.depthAll ws ≤ n ↔ ∀ w ∈ ws, w.depth ≤ n := by
  induction ws with
  | nil => simp [NamedWindow.depthAll]
  | cons w ws ih => rw [NamedWindow.depthAll, Nat.max_le, ih, List.forall_mem_cons]

end

end Sql
