import Mathlib.Data.List.Forall2
import Sql.Proofs.Doubles
import Sql.Proofs.Spells

/-! The tokens that names, literals, types and fixed choices are printed as. -/
namespace Sql

open Token (Kind Spelling)
open Token.Kind (commas joined parens given)

/-! ### Lists of texts -/

section

variable {texts : List String} {tss : List (List Kind)} {s t : String} {ts us : List Kind}

theorem Prints.cast (h : Prints s ts) (he : ts = us) : Prints s us := he ▸ h

theorem Leads.cast (h : Leads s ts) (he : ts = us) : Leads s us := he ▸ h

/-- Texts with a fixed text between each two. -/
theorem Prints.intercalate (h : List.Forall₂ Prints texts tss) (s : String) (ts : List Kind)
    (hs : leadKinds? [] s.toList = some ts := by cbv)
    (hn : startsNeutral s = true := by cbv) :
    Prints (s.intercalate texts) (ts.intercalate tss) := by
  induction h with
  | nil => exact .empty
  | @cons text us texts tss h hrest ih =>
    cases hrest with
    | nil => simpa using h
    | cons h' hrest =>
      rw [String.intercalate_cons_cons, List.intercalate_cons_cons]
      exact (h.leads s ts hs hn).prints ih

theorem joined_eq (k : Kind) (tss : List (List Kind)) : joined k tss = [k].intercalate tss := by
  cases tss with
  | nil => rfl
  | cons ts tss =>
    rw [joined]
    induction tss generalizing ts with
    | nil => simp
    | cons us tss ih =>
      rw [List.intercalate_cons_cons, ← ih]
      simp

theorem intercalate_nil (tss : List (List Kind)) : [].intercalate tss = tss.flatten := by
  induction tss with
  | nil => rfl
  | cons ts tss ih =>
    cases tss with
    | nil => simp
    | cons us tss => rw [List.intercalate_cons_cons, ih]; simp

theorem Prints.commas (h : List.Forall₂ Prints texts tss) :
    Prints (", ".intercalate texts) (commas tss) :=
  (Prints.intercalate h ", " [.symbol .comma] (by cbv) (by cbv)).cast (joined_eq ..).symm

end

/-- Parts that are printed one after the other. -/
def Pieces {α : Type} (R : α → List Kind → Prop) (xs : List α) (ts : List Kind) : Prop :=
  ∃ tss, List.Forall₂ R xs tss ∧ tss.flatten = ts

namespace Pieces

variable {α : Type} {R : α → List Kind → Prop} {xs ys : List α} {ts us : List Kind} {x : α}

theorem nil : Pieces R [] [] := ⟨[], .nil, rfl⟩

theorem single (h : R x ts) : Pieces R [x] ts := ⟨[ts], .cons h .nil, by simp⟩

theorem append (h : Pieces R xs ts) (h' : Pieces R ys us) : Pieces R (xs ++ ys) (ts ++ us) := by
  obtain ⟨tss, hts, rfl⟩ := h
  obtain ⟨uss, hus, rfl⟩ := h'
  exact ⟨tss ++ uss, List.rel_append hts hus, List.flatten_append⟩

theorem cast (h : Pieces R xs ts) (he : ts = us) : Pieces R xs us := he ▸ h

/-- A part that is there only if the condition fails. -/
theorem absentIf {b : Bool} (h : b = false → Pieces R xs ts) :
    Pieces R (if b then [] else xs) (if b then [] else ts) := by
  cases b with
  | false => exact h rfl
  | true => exact nil

end Pieces

/-! ### Names -/

namespace Ident

theorem prints {x : Ident} (h : x.Named) : Prints x.sql [x.token] := .spelling (.name h)

theorem printsAll {xs : List Ident} (h : ∀ x ∈ xs, x.Named) :
    List.Forall₂ Prints (xs.map sql) (xs.map fun x => [x.token]) := by
  refine List.forall₂_map_left_iff.2 (List.forall₂_map_right_iff.2 (List.forall₂_same.2 ?_))
  exact fun x hx => prints (h x hx)

theorem prints_sqlList {xs : List Ident} (h : ∀ x ∈ xs, x.Named) :
    Prints (sqlList xs) (tokens xs) := .commas (printsAll h)

theorem prints_parenList {xs : List Ident} (h : ∀ x ∈ xs, x.Named) :
    Prints ("(" ++ sqlList xs ++ ")") (parens (tokens xs)) :=
  (prints_sqlList h).close (.fixed "(" [.symbol .leftParen] (by cbv))

/-- The list behind a fixed text, if there is one. -/
theorem follows_listAfter (lead : String) (ts : List Kind) {xs : List Ident}
    (h : ∀ x ∈ xs, x.Named) (hs : leadKinds? [] lead.toList = some ts := by cbv)
    (hn : startsNeutral lead = true := by cbv) :
    Follows (listAfter lead xs) (listTokens ts xs) := by
  unfold listAfter listTokens
  split
  · exact .empty
  · have hparen := prints_parenList h
    have := Follows.lead lead ts hparen hs hn
    simpa only [String.append_assoc, parens, List.append_assoc, List.singleton_append] using this

/-- The parameters of a lambda. -/
theorem prints_params {xs : List Ident} (h : ∀ x ∈ xs, x.Named) :
    Prints (paramsSql xs) (paramTokens xs) := by
  have hlist := prints_parenList h
  rcases xs with _ | ⟨x, _ | ⟨y, xs⟩⟩
  · exact hlist
  · exact prints (h x (by simp))
  · exact hlist

end Ident

/-- Texts of tokens between points. -/
theorem Prints.dotted {texts : List String} {ks : List Kind}
    (h : List.Forall₂ (fun s k => Spelling s.toList k ∧ k.apart '.' = true ∧
      (Kind.symbol .dot).Apart s.toList) texts ks) :
    Prints (".".intercalate texts) (joined (.symbol .dot) (ks.map ([·]))) := by
  induction h with
  | nil => exact .empty
  | @cons s k texts ks h hrest ih =>
    have hs : Prints s [k] := .spelling h.1
    cases hrest with
    | nil => simpa [joined] using hs
    | @cons s' k' texts ks h' hrest =>
      rw [String.intercalate_cons_cons, String.append_assoc]
      have hdot : Prints ("." ++ ".".intercalate (s' :: texts))
          (.symbol .dot :: joined (.symbol .dot) ((k' :: ks).map ([·]))) := by
        refine (Prints.symbol .dot (by decide)).append ih fun k hk c hc => ?_
        cases hk
        refine h'.2.2 c ?_
        obtain ⟨d, w, hw⟩ := h'.1.cons
        cases texts with
        | nil => simpa using hc
        | cons r rs =>
          rw [String.intercalate_cons_cons, String.append_assoc, String.toList_append, hw] at hc
          rw [hw]
          exact hc
      refine hs.append hdot fun k' hk' c hc => ?_
      cases hk'
      rw [String.toList_append] at hc
      cases hc
      exact h.2.1

namespace Name

theorem prints {n : Name} (h : n.Named) : Prints n.sql n.tokens := by
  have hparts : List.Forall₂ (fun s k => Spelling s.toList k ∧ k.apart '.' = true ∧
      (Kind.symbol .dot).Apart s.toList) (n.parts.map Ident.sql) (n.parts.map Ident.token) := by
    refine List.forall₂_map_left_iff.2 (List.forall₂_map_right_iff.2 (List.forall₂_same.2 ?_))
    refine fun x hx => ⟨.name (h x hx), rfl, fun c hc => ?_⟩
    rw [Ident.sql, Text.toList_quote] at hc
    cases hc
    rfl
  have := Prints.dotted hparts
  rwa [List.map_map] at this

/-- The parts of the name of a function. -/
theorem spelling_part {x : Ident} (h : x.Spelled) :
    Spelling (if x.delimited then x.sql else x.text).toList (.ident x) ∧
      (Kind.ident x).apart '.' = true ∧
      (Kind.symbol .dot).Apart (if x.delimited then x.sql else x.text).toList := by
  obtain ⟨text, delimited⟩ := x
  cases delimited with
  | true =>
    refine ⟨.name h, rfl, fun c hc => ?_⟩
    rw [if_pos rfl, Ident.sql, Text.toList_quote] at hc
    cases hc
    rfl
  | false =>
    obtain ⟨⟨c, cs, htext, hc, hcs⟩, hword⟩ := h
    have hkind : Token.wordKind (String.ofList text.toList) = .ident ⟨text, false⟩ := by
      rw [String.ofList_toList, Token.wordKind, hword]
      rfl
    have hdot : Token.continuesWord '.' = false := by cbv
    refine ⟨?_, by simp [Kind.apart, hdot]; decide, fun d hd => ?_⟩
    · rw [← hkind]
      exact .word ⟨c, cs, htext, hc, hcs⟩
    · simp only [Bool.false_eq_true, if_false, htext, List.head?_cons] at hd
      cases hd
      simp [Kind.apart, Token.not_isDigit_of_startsWord hc]

theorem prints_callSql {n : Name} (h : ∀ x ∈ n.parts, x.Spelled) :
    Prints n.callSql n.callTokens := by
  have hparts : List.Forall₂ (fun s k => Spelling s.toList k ∧ k.apart '.' = true ∧
      (Kind.symbol .dot).Apart s.toList)
      (n.parts.map fun x => if x.delimited then x.sql else x.text)
      (n.parts.map fun x => .ident x) := by
    refine List.forall₂_map_left_iff.2 (List.forall₂_map_right_iff.2 (List.forall₂_same.2 ?_))
    exact fun x hx => spelling_part (h x hx)
  have := Prints.dotted hparts
  rwa [List.map_map] at this

theorem getLast?_tokens (n : Name) : n.tokens.getLast? = some n.base.token := by
  have : ∀ xs : List Ident, (joined (.symbol .dot) ((xs ++ [n.base]).map fun x =>
      [x.token])).getLast? = some n.base.token := by
    intro xs
    cases xs with
    | nil => rfl
    | cons x xs =>
      refine List.getLast?_eq_some_iff.2 ⟨x.token ::
        (xs.flatMap (fun x => [Kind.symbol .dot, x.token]) ++ [Kind.symbol .dot]), ?_⟩
      simp [joined, List.flatMap_map]
  exact this n.qualifier

theorem prints_starSql {r : Option Name} (h : ∀ n ∈ r, n.Named) :
    Prints (starSql r) (starTokens r) := by
  cases r with
  | none => exact .symbol .star (by decide)
  | some n =>
    have hdot : Prints ".*" [.symbol .dot, .symbol .star] := by
      refine (Prints.symbol .dot (by decide)).append (.symbol .star (by decide)) fun k hk c hc => ?_
      cases hk
      cases hc
      rfl
    refine (prints (h n rfl)).append hdot fun k hk c hc => ?_
    rw [getLast?_tokens] at hk
    cases hk
    cases hc
    rfl

end Name

/-! ### Literals -/

theorem Prints.number {n : Nat} (h : n ≤ Token.maxInteger) : Prints (Text.decimal n) [.number n] :=
  .spelling (.integer h)

theorem Literal.prints {v : Literal} (h : v.Sound) : Prints v.sql v.tokens := by
  cases v with
  | null => exact .fixed "NULL" [.keyword .NULL] (by cbv)
  | boolean b =>
    cases b with
    | true => exact .fixed "TRUE" [.keyword .TRUE] (by cbv)
    | false => exact .fixed "FALSE" [.keyword .FALSE] (by cbv)
  | integer n =>
    have hn : 0 ≤ n.toInt := Int64.le_iff_toInt_le.1 h
    have hmax : n.toInt ≤ Token.maxInteger := Int64.toInt_le n
    have hkind : (.integer n : Kind) = .number n.toInt.natAbs := by
      have : (n.toInt.natAbs : Int) = n.toInt := Int.natAbs_of_nonneg hn
      rw [Kind.number, ← Int64.ofInt_eq_ofNat, this, Int64.ofInt_toInt]
    rw [Literal.sql, Literal.tokens, Text.signedDecimal, if_neg (Int.not_lt.2 hn), hkind]
    exact .number (by omega)
  | decimal text => exact .spelling (.decimal h)
  | double d =>
    rw [Literal.sql, Literal.tokens, Literal.doubleSql, if_neg (by simp [h.2.1])]
    cases hi : d.isInfinite with
    | true =>
      rw [if_pos rfl, if_pos rfl, if_neg (by simp [h.1])]
      exact .fixed "infinity()" [.word "infinity", .symbol .leftParen, .symbol .rightParen] (by cbv)
    | false =>
      rw [if_neg (by simp), if_neg (by simp)]
      exact .spelling (d.spelling h.1 h.2.1 hi (h.2.2 hi))
  | string text => exact .spelling (.string text)
  | binary bytes =>
    refine .spelling ?_
    rw [Literal.sql, String.toList_append]
    exact .binary bytes

/-! ### Types -/

namespace Scalar

theorem prints_temporal {word : String} (p : Nat) (zoned : Bool)
    (hp : p ≤ DataType.maxTimePrecision) (hw : Prints word [.word word]) :
    Prints (temporalSql word p zoned) (temporalTokens word p zoned) := by
  have hnumber : Prints (Text.decimal p) [.number p] :=
    .number (Nat.le_trans hp (by decide))
  have hparen := hnumber.close (hw.leads "(" [.symbol .leftParen] (by cbv) (by cbv))
  unfold temporalSql temporalTokens
  cases zoned with
  | false => exact (hparen.follow .empty).cast (by simp [parens])
  | true =>
    exact (hparen.ends " WITH TIME ZONE" [.keyword .WITH, .word "TIME", .word "ZONE"] (by cbv)
      (by cbv)).cast (by simp [parens])

theorem prints {t : Scalar} (h : t.InRange) : Prints t.sql t.tokens := by
  have hlength : ∀ {n}, n ≤ DataType.maxLength → Prints (Text.decimal n) [.number n] :=
    fun hn => .number (Nat.le_trans hn (by decide))
  have hprecision : ∀ {n}, n ≤ DataType.maxPrecision → Prints (Text.decimal n) [.number n] :=
    fun hn => .number (Nat.le_trans hn (by decide))
  cases t with
  | decimal p s =>
    have hlead := (Leads.fixed "DECIMAL(" [.word "DECIMAL", .symbol .leftParen] (by cbv)).prints
      (hprecision h.2.1)
    exact (hprecision (Nat.le_trans h.2.2 h.2.1)).close
      (hlead.leads "," [.symbol .comma] (by cbv) (by cbv))
  | varchar n =>
    cases n with
    | none => exact .fixed "VARCHAR" [.word "VARCHAR"] (by cbv)
    | some n =>
      exact (hlength h.2).close (.fixed "VARCHAR(" [.word "VARCHAR", .symbol .leftParen] (by cbv))
  | char n =>
    exact (hlength h.2).close (.fixed "CHAR(" [.word "CHAR", .symbol .leftParen] (by cbv))
  | time p zoned => exact prints_temporal p zoned h (.fixed "TIME" [.word "TIME"] (by cbv))
  | timestamp p zoned =>
    exact prints_temporal p zoned h (.fixed "TIMESTAMP" [.word "TIMESTAMP"] (by cbv))
  | yearToMonth =>
    exact .fixed "INTERVAL YEAR TO MONTH"
      [.word "INTERVAL", .word "YEAR", .word "TO", .word "MONTH"] (by cbv)
  | dayToSecond =>
    exact .fixed "INTERVAL DAY TO SECOND"
      [.word "INTERVAL", .word "DAY", .word "TO", .word "SECOND"] (by cbv)
  | boolean => exact .fixed "BOOLEAN" [.word "BOOLEAN"] (by cbv)
  | tinyint => exact .fixed "TINYINT" [.word "TINYINT"] (by cbv)
  | smallint => exact .fixed "SMALLINT" [.word "SMALLINT"] (by cbv)
  | integer => exact .fixed "INTEGER" [.word "INTEGER"] (by cbv)
  | bigint => exact .fixed "BIGINT" [.word "BIGINT"] (by cbv)
  | real => exact .fixed "REAL" [.word "REAL"] (by cbv)
  | double => exact .fixed "DOUBLE" [.word "DOUBLE"] (by cbv)
  | varbinary => exact .fixed "VARBINARY" [.word "VARBINARY"] (by cbv)
  | json => exact .fixed "JSON" [.word "JSON"] (by cbv)
  | date => exact .fixed "DATE" [.word "DATE"] (by cbv)

end Scalar

mutual

theorem DataType.prints : (t : DataType) → t.InRange → Prints t.sql t.tokens
  | .unknown, _ => .fixed "UNKNOWN" [.word "UNKNOWN"] (by cbv)
  | .scalar t, h => by
    rw [DataType.sql, DataType.tokens]
    exact t.prints h
  | .array t, h => by
    rw [DataType.sql, DataType.tokens]
    exact (t.prints h).close (.fixed "ARRAY(" [.word "ARRAY", .symbol .leftParen] (by cbv))
  | .map k v, h => by
    rw [DataType.InRange] at h
    rw [DataType.sql, DataType.tokens]
    have hmap := Leads.fixed "MAP(" [.word "MAP", .symbol .leftParen] (by cbv)
    have hkey := (hmap.prints (k.prints h.1)).leads "," [.symbol .comma] (by cbv) (by cbv)
    exact ((v.prints h.2).close hkey).cast (by simp [parens])
  | .row fields, h => by
    rw [DataType.InRange] at h
    rw [DataType.sql, DataType.tokens]
    have hfields :=
      Prints.intercalate (RowField.printsAll fields h.2) "," [.symbol .comma] (by cbv) (by cbv)
    rw [← joined_eq] at hfields
    exact hfields.close (.fixed "ROW(" [.word "ROW", .symbol .leftParen] (by cbv))
termination_by structural t => t

theorem RowField.prints : (f : RowField) → f.InRange → Prints f.sql f.tokens
  | ⟨none, t⟩, h => by
    rw [RowField.InRange] at h
    rw [RowField.sql, RowField.tokens]
    exact t.prints h.2
  | ⟨some name, t⟩, h => by
    rw [RowField.InRange] at h
    rw [RowField.sql, RowField.tokens]
    have hname : Prints (Text.quote Text.nameMark name) [.ident (.quoted name)] :=
      .spelling (.name fun he => h.1 (by rw [he]))
    exact (hname.leads " " [] (by cbv) (by cbv)).prints (t.prints h.2)
termination_by structural f => f

theorem RowField.printsAll : (fs : List RowField) → RowField.AllInRange fs →
    List.Forall₂ Prints (RowField.sqls fs) (RowField.tokenLists fs)
  | [], _ => .nil
  | f :: fs, h => by
    rw [RowField.AllInRange] at h
    rw [RowField.sqls, RowField.tokenLists]
    exact .cons (f.prints h.1) (RowField.printsAll fs h.2)
termination_by structural fs => fs

end

end Sql
