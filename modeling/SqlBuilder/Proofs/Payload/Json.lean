import SqlBuilder.JsonSpec.Compile
import SqlBuilder.Proofs.Payload.Template

/-!
# JSON projections end outside quotes

A compiled projection holds quoted keys, quoted names and literals. Each of them ends
outside quotes, and so does every constructor call around them.
-/
namespace SqlBuilder.Payload

open Lexer
open List (Forall₂)

variable {e : Engine}

theorem closed_quoteIdent {name text : String} (h : e.quoteIdent name = .ok text) :
    Closed e text.toList := (free_quoteIdent (.inl rfl) h).settled

theorem closed_quoteText (text : String) : Closed e (e.quoteText text).toList := by
  rw [Engine.quoteText, String.toList_ofList]
  exact (TextAlike.literal (R := Eq) rfl).left

theorem closed_commaJoined {texts : List String} (h : ∀ t ∈ texts, Closed e t.toList) :
    Closed e (Engine.commaJoined texts).toList := by
  rw [Engine.commaJoined, String.toList_intercalate]
  refine (TextAlike.intercalate (R := Eq) (separates_comma e) (List.forall₂_same.mpr ?_)).left
  intro cs hcs
  obtain ⟨t, ht, rfl⟩ := List.mem_map.mp hcs
  exact .refl (h t ht)

theorem closed_escapeScalar {v : Value} {text : String} (h : e.escapeScalar v = .ok text) :
    Closed e text.toList := by
  have halike (hv : ValueAlike Eq v v) : Closed e text.toList := by
    have hs := escapeScalar_alike (e := e) hv
    rw [h] at hs
    cases hs with
    | ok hab => exact hab.textAlike.left
  cases v with
  | null => exact halike .null
  | bool b => exact halike (.bool b)
  | int n => exact halike (.int n)
  | float x => exact halike (.float x)
  | text s => exact halike (.text rfl)
  | list _ => cases h
  | ident _ => cases h
  | raw _ => cases h

theorem closed_escape {v : Value} (hv : ∀ sql, v ≠ .raw sql) {text : String}
    (h : e.escape v = .ok text) : Closed e text.toList := by
  have hscalar : e.escapeScalar v = .ok text → Closed e text.toList := closed_escapeScalar
  cases v with
  | raw sql => exact absurd rfl (hv sql)
  | ident name => exact closed_quoteIdent h
  | list items =>
    obtain ⟨texts, ht, rfl⟩ := Outcome.exists_of_map_eq_ok h
    apply closed_commaJoined
    intro t hmem
    obtain ⟨v, -, hv⟩ := Outcome.mem_of_mapM_eq_ok ht hmem
    exact closed_escapeScalar hv
  | _ => exact hscalar h

/-- All texts written in a projection end outside quotes. -/
inductive ExprClosed (e : Engine) : JsonExpr → Prop where
  | sql {text : String} : Closed e text.toList → ExprClosed e (.sql text)
  | object {pairs : List (String × JsonExpr)} : (∀ p ∈ pairs, ExprClosed e p.2) →
      ExprClosed e (.object pairs)
  | array {items : List JsonExpr} : (∀ x ∈ items, ExprClosed e x) → ExprClosed e (.array items)

theorem closed_call {function : String} (hf : Opens e (function ++ "(").toList)
    {args : List String} (h : ∀ t ∈ args, Closed e t.toList) :
    Closed e (JsonExpr.call function args).toList := by
  have hargs := closed_append_of_opens hf (closed_commaJoined h)
  have hclose : Closed e [')'] := closed_of_quoteFree e (by decide)
  rw [JsonExpr.call, String.toList_append, String.toList_append]
  exact closed_append_symbol (by simpa using hargs) (by decide) hclose

mutual

theorem closed_toSql {x : JsonExpr} (h : ExprClosed e x) : Closed e (x.toSql e).toList := by
  cases x with
  | sql text =>
    cases h with
    | sql ht => exact ht
  | object pairs =>
    cases h with
    | object hp => exact closed_call (by cases e <;> decide) (closed_pairArgs hp)
  | array items =>
    cases h with
    | array hi => exact closed_call (by cases e <;> decide) (closed_itemArgs hi)

theorem closed_pairArgs {pairs : List (String × JsonExpr)} (h : ∀ p ∈ pairs, ExprClosed e p.2) :
    ∀ t ∈ JsonExpr.pairArgs e pairs, Closed e t.toList := by
  cases pairs with
  | nil =>
    intro t ht
    exact absurd ht List.not_mem_nil
  | cons p ps =>
    intro t ht
    rcases List.mem_cons.mp ht with rfl | ht
    · exact closed_quoteText p.1
    rcases List.mem_cons.mp ht with rfl | ht
    · exact closed_toSql (h p List.mem_cons_self)
    · exact closed_pairArgs (fun q hq => h q (List.mem_cons_of_mem _ hq)) t ht

theorem closed_itemArgs {items : List JsonExpr} (h : ∀ x ∈ items, ExprClosed e x) :
    ∀ t ∈ JsonExpr.itemArgs e items, Closed e t.toList := by
  cases items with
  | nil =>
    intro t ht
    exact absurd ht List.not_mem_nil
  | cons x xs =>
    intro t ht
    rcases List.mem_cons.mp ht with rfl | ht
    · exact closed_toSql (h x List.mem_cons_self)
    · exact closed_itemArgs (fun y hy => h y (List.mem_cons_of_mem _ hy)) t ht

end

open JsonSpec

/-- A description without raw text. -/
inductive Rawless : JsonSpec → Prop where
  | text (s : String) : Rawless (.text s)
  | list {items : List JsonSpec} : (∀ x ∈ items, Rawless x) → Rawless (.list items)
  | map {pairs : List (String × JsonSpec)} : (∀ p ∈ pairs, Rawless p.2) → Rawless (.map pairs)
  | literal {v : Value} : (∀ sql, v ≠ .raw sql) → Rawless (.literal v)

mutual

theorem closed_textExpr (cs : List Char) {x : JsonExpr} (h : textExpr e cs = .ok x) :
    ExprClosed e x := by
  rw [textExpr] at h
  split at h
  · obtain ⟨pairs, hp, rfl⟩ := Outcome.exists_of_map_eq_ok h
    refine .object ?_
    intro p hmem
    obtain ⟨item, -, hitem⟩ := Outcome.mem_of_mapM_eq_ok hp hmem
    have := length_of_mem_items_le item.2
    have := Text.length_trim_le cs
    exact closed_itemPair item.1 hitem
  split at h
  · rename_i htop
    obtain ⟨items, hi, rfl⟩ := Outcome.exists_of_map_eq_ok h
    refine .array ?_
    intro x hmem
    obtain ⟨item, -, hitem⟩ := Outcome.mem_of_mapM_eq_ok hi hmem
    have := length_of_mem_items item.2
    have := Text.length_trim_le cs
    have : 1 < (Text.splitTop ',' (Text.trim cs)).length := of_decide_eq_true htop
    exact closed_textExpr item.1 hitem
  split at h
  · cases h
  · obtain ⟨text, ht, rfl⟩ := Outcome.exists_of_map_eq_ok h
    exact .sql (closed_quoteIdent ht)
termination_by 2 * cs.length + 1

theorem closed_itemPair (item : List Char) {p : String × JsonExpr}
    (h : itemPair e item = .ok p) : ExprClosed e p.2 := by
  rw [itemPair] at h
  split at h
  · cases h
  · rename_i hsplit
    obtain ⟨name, -, h⟩ := Outcome.exists_of_bind_eq_ok h
    obtain ⟨value, hv, h⟩ := Outcome.exists_of_bind_eq_ok h
    cases h
    have := length_of_splitPair hsplit
    exact closed_textExpr _ hv
termination_by 2 * item.length

end

def PairsClosed (e : Engine) (pairs : List (String × JsonExpr)) : Prop :=
  ∀ p ∈ pairs, ExprClosed e p.2

theorem closed_literalExpr {v : Value} (hv : ∀ sql, v ≠ .raw sql) {x : JsonExpr}
    (h : literalExpr e v = .ok x) : ExprClosed e x := by
  obtain ⟨text, ht, rfl⟩ := Outcome.exists_of_map_eq_ok h
  exact .sql (closed_escape hv ht)

mutual

theorem closed_objectPairs {spec : JsonSpec} (hspec : Rawless spec)
    {pairs : List (String × JsonExpr)} (h : objectPairs e spec = .ok pairs) :
    PairsClosed e pairs := by
  cases spec with
  | text s =>
    intro p hp
    obtain ⟨item, -, hitem⟩ := Outcome.mem_of_mapM_eq_ok h hp
    exact closed_itemPair item hitem
  | list elements =>
    cases hspec with
    | list hs => exact closed_elementPairs hs h
  | map ps =>
    cases hspec with
    | map hs => exact closed_mapPairs hs h
  | literal v => cases h

theorem closed_elementPairs {specs : List JsonSpec} (hspecs : ∀ x ∈ specs, Rawless x)
    {pairs : List (String × JsonExpr)} (h : elementPairs e specs = .ok pairs) :
    PairsClosed e pairs := by
  cases specs with
  | nil =>
    cases h
    intro p hp
    exact absurd hp List.not_mem_nil
  | cons spec specs =>
    have hhead := hspecs spec List.mem_cons_self
    have htail : ∀ x ∈ specs, Rawless x := fun x hx => hspecs x (List.mem_cons_of_mem _ hx)
    have hboth {ps : List (String × JsonExpr)} (hps : objectPairs e spec = .ok ps)
        {qs : List (String × JsonExpr)} (hqs : elementPairs e specs = .ok qs) :
        PairsClosed e (ps ++ qs) := by
      intro p hp
      rcases List.mem_append.mp hp with hp | hp
      · exact closed_objectPairs hhead hps p hp
      · exact closed_elementPairs htail hqs p hp
    cases spec with
    | list items => cases h
    | literal v => cases h
    | text s =>
      obtain ⟨ps, hps, h⟩ := Outcome.exists_of_bind_eq_ok h
      obtain ⟨qs, hqs, h⟩ := Outcome.exists_of_bind_eq_ok h
      cases h
      exact hboth hps hqs
    | map mapped =>
      obtain ⟨ps, hps, h⟩ := Outcome.exists_of_bind_eq_ok h
      obtain ⟨qs, hqs, h⟩ := Outcome.exists_of_bind_eq_ok h
      cases h
      exact hboth hps hqs

theorem closed_mapPairs {specs : List (String × JsonSpec)} (hspecs : ∀ p ∈ specs, Rawless p.2)
    {pairs : List (String × JsonExpr)} (h : mapPairs e specs = .ok pairs) :
    PairsClosed e pairs := by
  cases specs with
  | nil =>
    cases h
    intro p hp
    exact absurd hp List.not_mem_nil
  | cons spec specs =>
    obtain ⟨name, -, h⟩ := Outcome.exists_of_bind_eq_ok h
    obtain ⟨value, hv, h⟩ := Outcome.exists_of_bind_eq_ok h
    obtain ⟨qs, hqs, h⟩ := Outcome.exists_of_bind_eq_ok h
    cases h
    intro p hp
    rcases List.mem_cons.mp hp with rfl | hp
    · exact closed_valueExpr (hspecs spec List.mem_cons_self) hv
    · exact closed_mapPairs (fun q hq => hspecs q (List.mem_cons_of_mem _ hq)) hqs p hp

theorem closed_valueExpr {spec : JsonSpec} (hspec : Rawless spec) {x : JsonExpr}
    (h : valueExpr e spec = .ok x) : ExprClosed e x := by
  cases hspec with
  | text s => exact closed_textExpr _ h
  | list hs =>
    obtain ⟨items, hi, rfl⟩ := Outcome.exists_of_map_eq_ok h
    exact .array (closed_valueExprs hs hi)
  | map hs =>
    obtain ⟨pairs, hp, rfl⟩ := Outcome.exists_of_map_eq_ok h
    exact .object (closed_mapPairs hs hp)
  | literal hv => exact closed_literalExpr hv h

theorem closed_valueExprs {specs : List JsonSpec} (hspecs : ∀ x ∈ specs, Rawless x)
    {items : List JsonExpr} (h : valueExprs e specs = .ok items) :
    ∀ x ∈ items, ExprClosed e x := by
  cases specs with
  | nil =>
    cases h
    intro x hx
    exact absurd hx List.not_mem_nil
  | cons spec specs =>
    obtain ⟨value, hv, h⟩ := Outcome.exists_of_bind_eq_ok h
    obtain ⟨qs, hqs, h⟩ := Outcome.exists_of_bind_eq_ok h
    cases h
    intro x hx
    rcases List.mem_cons.mp hx with rfl | hx
    · exact closed_valueExpr (hspecs spec List.mem_cons_self) hv
    · exact closed_valueExprs (fun y hy => hspecs y (List.mem_cons_of_mem _ hy)) hqs x hx

end

theorem closed_arrayItems {spec : JsonSpec} (hspec : Rawless spec) {items : List JsonExpr}
    (h : arrayItems e spec = .ok items) : ∀ x ∈ items, ExprClosed e x := by
  cases hspec with
  | text s =>
    intro x hx
    obtain ⟨item, -, hitem⟩ := Outcome.mem_of_mapM_eq_ok h hx
    exact closed_textExpr item hitem
  | list hs => exact closed_valueExprs hs h
  | map hs => cases h
  | literal hv =>
    obtain ⟨x, hx, rfl⟩ := Outcome.exists_of_map_eq_ok h
    intro y hy
    rw [List.mem_singleton.mp hy]
    exact closed_literalExpr hv hx

theorem closed_compile {d : Dialect} {spec : JsonSpec} (hspec : Rawless spec) {shape : JsonShape}
    {text : String} (h : spec.compile d shape = .ok text) : Closed d.engine text.toList := by
  simp only [compile] at h
  split at h
  · cases h
  cases shape with
  | object =>
    obtain ⟨pairs, hp, rfl⟩ := Outcome.exists_of_map_eq_ok h
    split
    · trivial
    · exact closed_toSql (.object (closed_objectPairs hspec hp))
  | array =>
    obtain ⟨items, hi, rfl⟩ := Outcome.exists_of_map_eq_ok h
    split
    · trivial
    · exact closed_toSql (.array (closed_arrayItems hspec hi))

end SqlBuilder.Payload
