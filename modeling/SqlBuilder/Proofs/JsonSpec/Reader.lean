import SqlBuilder.JsonSpec.Compile
import SqlBuilder.Proofs.Condition.Scan
import SqlBuilder.Proofs.Ident
import SqlBuilder.Proofs.Lexer.Reading
import SqlBuilder.Proofs.Payload.Json

/-!
# Reading calls back

An engine reads a text as arguments with commas between them, and what stands in parentheses
again as arguments. Commas and parentheses inside quotes are part of a token and count for
nothing.
-/
namespace SqlBuilder.Arguments

open Lexer
open List (Forall₂)

/-- A token, or the arguments between parentheses. -/
inductive Node where
  | token (t : Token)
  | group (args : List (List Node))

abbrev Arg := List Node

/-- Between parentheses that hold nothing there is no argument, not an empty one. -/
def given : List Arg → List Arg
  | [[]] => []
  | args => args

/-- Arguments that are being read: those that a comma has ended, and the one after them. -/
structure Begun where
  ended : List Arg
  current : Arg

namespace Begun

def start : Begun := ⟨[], []⟩

def add (b : Begun) (nodes : List Node) : Begun := { b with current := b.current ++ nodes }

def cut (b : Begun) : Begun := ⟨b.ended ++ [b.current], []⟩

def args (b : Begun) : List Arg := given (b.ended ++ [b.current])

/-- Puts arguments with commas between them behind what has been read. -/
def splice (b : Begun) : List Arg → Begun
  | [] => b
  | [a] => b.add a
  | a :: a' :: as => (b.add a).cut.splice (a' :: as)

theorem splice_append {as bs : List Arg} (ha : as ≠ []) (hb : bs ≠ []) (b : Begun) :
    b.splice (as ++ bs) = (b.splice as).cut.splice bs := by
  induction as generalizing b with
  | nil => exact absurd rfl ha
  | cons a as ih =>
    cases as with
    | nil =>
      obtain ⟨a', bs, rfl⟩ := List.exists_cons_of_ne_nil hb
      rfl
    | cons a' as => exact ih (List.cons_ne_nil a' as) (b.add a).cut

theorem splice_all (a : Arg) (as : List Arg) (b : Begun) :
    (b.splice (a :: as)).ended ++ [(b.splice (a :: as)).current] =
      b.ended ++ (b.current ++ a) :: as := by
  induction as generalizing a b with
  | nil => rfl
  | cons a' as ih =>
    rw [splice, ih]
    simp [cut, add]

theorem args_splice (as : List Arg) : (start.splice as).args = given as := by
  cases as with
  | nil => rfl
  | cons a as =>
    rw [args, splice_all]
    rfl

end Begun

/-- Where a reading stands: the innermost arguments, and those around the open parentheses. -/
structure Reading where
  inner : Begun
  outer : List Begun

def step (r : Reading) (t : Token) : Option Reading :=
  if t = .symbol '(' then some ⟨.start, r.inner :: r.outer⟩
  else if t = .symbol ')' then match r.outer with
    | [] => none
    | b :: outer => some ⟨b.add [.group r.inner.args], outer⟩
  else if t = .symbol ',' then some { r with inner := r.inner.cut }
  else if Condition.isBlank t then some r
  else some { r with inner := r.inner.add [.token t] }

def read (r : Reading) (ts : List Token) : Option Reading := ts.foldlM step r

/-- The arguments that an engine reads in a text. -/
def args? (e : Engine) (text : String) : Option (List Arg) :=
  match read ⟨.start, []⟩ (tokens e text.toList) with
  | some ⟨b, []⟩ => some b.args
  | _ => none

/-- A token that neither separates nor encloses arguments. -/
def IsPlain (t : Token) : Prop :=
  Condition.isBlank t = false ∧ t ∉ [.symbol '(', .symbol ')', .symbol ',']

instance : DecidablePred IsPlain := fun _ => inferInstanceAs (Decidable (_ ∧ _))

variable {e : Engine} {r : Reading} {t : Token}

theorem read_cons (r : Reading) (t : Token) (ts : List Token) :
    read r (t :: ts) = (step r t).bind fun r => read r ts := List.foldlM_cons

theorem read_append (r : Reading) (ts us : List Token) :
    read r (ts ++ us) = (read r ts).bind fun r => read r us := List.foldlM_append

theorem step_plain (h : IsPlain t) :
    step r t = some { r with inner := r.inner.add [.token t] } := by
  obtain ⟨hblank, hmem⟩ := h
  simp only [List.mem_cons, List.not_mem_nil, or_false, not_or] at hmem
  rw [step, if_neg hmem.1, if_neg hmem.2.1, if_neg hmem.2.2, if_neg (by simp [hblank])]

/-- The text is read as these arguments wherever it stands among others. -/
structure ReadsAs (e : Engine) (cs : List Char) (args : List Arg) : Prop where
  closed : Closed e cs
  nonempty : args ≠ []
  read : ∀ r, read r (tokens e cs) = some { r with inner := r.inner.splice args }

theorem ReadsAs.args {text : String} {args : List Arg} (h : ReadsAs e text.toList args) :
    args? e text = some (given args) := by
  rw [args?, h.read, ← Begun.args_splice]

theorem read_comma (e : Engine) (r : Reading) :
    read r (tokens e ", ".toList) = some { r with inner := r.inner.cut } := by
  have htokens : tokens e ", ".toList = [.symbol ',', .symbol ' '] := by cases e <;> decide
  rw [htokens]
  rfl

theorem ReadsAs.append {cs ds : List Char} {as bs : List Arg} (hc : ReadsAs e cs as)
    (hd : ReadsAs e ds bs) : ReadsAs e (cs ++ ", ".toList ++ ds) (as ++ bs) := by
  have hsep : Separates e ", ".toList := by cases e <;> decide
  have hopens := opens_append_separates hc.closed hsep
  refine ⟨closed_append_of_opens hopens hd.closed, by simp [hc.nonempty], fun r => ?_⟩
  rw [tokens_append_of_opens hopens, tokens_append_separates hc.closed hsep, read_append,
    read_append, hc.read, Option.bind_some, read_comma, Option.bind_some, hd.read,
    Begun.splice_append hc.nonempty hd.nonempty]

theorem readsAs_commaJoined {texts : List String} {argss : List (List Arg)} (hne : texts ≠ [])
    (h : Forall₂ (fun t args => ReadsAs e t.toList args) texts argss) :
    ReadsAs e (Engine.commaJoined texts).toList argss.flatten := by
  rw [Engine.commaJoined, String.toList_intercalate]
  induction h with
  | nil => exact absurd rfl hne
  | @cons t args texts argss ht hts ih =>
    cases hts with
    | nil => simpa using ht
    | @cons u args' texts argss hu hus =>
      rw [List.map_cons, List.map_cons, List.intercalate_cons_cons, ← List.map_cons]
      exact ht.append (ih (List.cons_ne_nil u texts))

/-- A call is one argument, with the arguments of its texts between the parentheses. -/
theorem readsAs_call {function : String} (hopens : Opens e (function ++ "(").toList)
    (htokens : tokens e (function ++ "(").toList = [.word function.toList, .symbol '('])
    {texts : List String} {argss : List (List Arg)}
    (h : Forall₂ (fun t args => ReadsAs e t.toList args) texts argss) :
    ReadsAs e (JsonExpr.call function texts).toList
      [[.token (.word function.toList), .group (given argss.flatten)]] := by
  have hclosed : ∀ t ∈ texts, Closed e t.toList := by
    intro t ht
    obtain ⟨args, -, hread⟩ := Outcome.exists_of_mem_left h ht
    exact hread.closed
  refine ⟨Payload.closed_call hopens hclosed, List.cons_ne_nil _ _, fun r => ?_⟩
  have hinner (r : Reading) : read r (tokens e (Engine.commaJoined texts).toList) =
      some { r with inner := r.inner.splice argss.flatten } := by
    by_cases hne : texts = []
    · subst hne
      cases h
      rfl
    · exact (readsAs_commaJoined hne h).read r
  have hclosing : tokens e [')'] = [.symbol ')'] := by cases e <;> decide
  have hbody := closed_append_of_opens hopens (Payload.closed_commaJoined hclosed)
  have hsplit : (JsonExpr.call function texts).toList =
      ((function ++ "(").toList ++ (Engine.commaJoined texts).toList) ++ [')'] := by
    simp [JsonExpr.call]
  have hopening : read r [.word function.toList, .symbol '('] =
      some ⟨.start, r.inner.add [.token (.word function.toList)] :: r.outer⟩ := rfl
  rw [hsplit, tokens_append_symbol hbody (by decide), hclosing, tokens_append_of_opens hopens,
    htokens, read_append, read_append, hopening, Option.bind_some, hinner, Option.bind_some,
    ← Begun.args_splice]
  simp [read, step, Begun.add, Begun.splice]

theorem readsAs_plain {cs : List Char} (hclosed : Closed e cs)
    (h : ∀ t ∈ tokens e cs, IsPlain t) : ReadsAs e cs [(tokens e cs).map .token] := by
  refine ⟨hclosed, List.cons_ne_nil _ _, fun r => ?_⟩
  have hread {ts : List Token} (hts : ∀ t ∈ ts, IsPlain t) (r : Reading) :
      read r ts = some { r with inner := r.inner.add (ts.map .token) } := by
    induction ts generalizing r with
    | nil => simp [read, Begun.add]
    | cons t ts ih =>
      rw [List.forall_mem_cons] at hts
      rw [read_cons, step_plain hts.1, Option.bind_some, ih hts.2]
      simp [Begun.add]
  exact hread h r

/-- An expression without calls: tokens, at least one of them. -/
def IsExpr (arg : Arg) : Prop := arg ≠ [] ∧ ∀ n ∈ arg, ∃ t, n = .token t

structure OneArg (e : Engine) (cs : List Char) : Prop where
  closed : Closed e cs
  plain : ∀ t ∈ tokens e cs, IsPlain t
  nonempty : tokens e cs ≠ []

theorem OneArg.readsAs {cs : List Char} (h : OneArg e cs) :
    ∃ arg, IsExpr arg ∧ ReadsAs e cs [arg] := by
  refine ⟨_, ⟨?_, ?_⟩, readsAs_plain h.closed h.plain⟩
  · rw [Ne, List.map_eq_nil_iff]
    exact h.nonempty
  · intro n hn
    obtain ⟨t, -, rfl⟩ := List.mem_map.mp hn
    exact ⟨t, rfl⟩

theorem isPlain_of_not_symbol (h : ∀ c, t ≠ .symbol c) : IsPlain t := by
  cases t with
  | symbol c => exact absurd rfl (h c)
  | _ => exact ⟨rfl, by simp⟩

theorem oneArg_of_token {cs : List Char} (hclosed : Closed e cs) (ht : ∀ c, t ≠ .symbol c)
    (h : tokens e cs = [t]) : OneArg e cs := by
  refine ⟨hclosed, ?_, ?_⟩
  · rw [h, List.forall_mem_singleton]
    exact isPlain_of_not_symbol ht
  · rw [h]
    exact List.cons_ne_nil _ _

theorem oneArg_quoteText (e : Engine) (text : String) : OneArg e (e.quoteText text).toList :=
  oneArg_of_token (Payload.closed_quoteText text) (fun _ => Token.noConfusion)
    (tokens_quoteText e text)

theorem isPlain_digit {c : Char} (h : c.isDigit = true) : IsPlain (.symbol c) := by
  have hrange : 48 ≤ c.toNat ∧ c.toNat ≤ 57 := by
    simpa [Char.isDigit, UInt32.le_iff_toNat_le] using h
  have hne {d : Char} (hd : d.isDigit = false) : c ≠ d := by
    rintro rfl
    rw [h] at hd
    cases hd
  constructor
  · simp only [Condition.isBlank, Text.isBlank, Text.blankRanges, List.any_cons, List.any_nil,
      Bool.or_false, Bool.or_eq_false_iff, Bool.and_eq_false_iff, decide_eq_false_iff_not]
    omega
  · simp [hne (d := '(') (by decide), hne (d := ')') (by decide), hne (d := ',') (by decide)]

theorem oneArg_signed (negative : Bool) {ds : List Char} (hne : ds ≠ []) (h : Numeral ds) :
    OneArg e (sign negative ++ ds) := by
  have hchar : ∀ c ∈ sign negative ++ ds, c.isDigit = true ∨ c = '.' ∨ c = '-' := by
    intro c hc
    rcases List.mem_append.mp hc with hc | hc
    · cases negative with
      | false => cases hc
      | true => exact .inr (.inr (List.mem_singleton.mp hc))
    · exact (h c hc).imp_right .inl
  refine ⟨closed_of_quoteFree e (quoteFree_signed negative h), fun t ht => ?_, ?_⟩
  · cases t with
    | symbol c =>
      obtain hdigit | rfl | rfl := hchar c (mem_of_symbol_mem ht)
      · exact isPlain_digit hdigit
      · decide
      · decide
    | _ => exact ⟨rfl, by simp⟩
  · exact tokens_ne_nil (List.append_ne_nil_of_right_ne_nil _ hne)

theorem oneArg_quotedName (name : String) :
    OneArg e (Ident.quotedName e.identQuote name).toList := by
  have hfree := free_quotedName (.inl rfl : Free e .between) name
  exact oneArg_of_token hfree.settled (fun _ => Token.noConfusion) (tokens_quotedName name)

theorem oneArg_part (p : Ident.Part) : OneArg e (p.toSql e.identQuote).toList := by
  cases p with
  | name text => exact oneArg_quotedName text
  | wildcard => cases e <;> exact ⟨by decide, by decide, by decide⟩

theorem oneArg_dotted {a b : List Char} (ha : OneArg e a) (hb : OneArg e b) :
    OneArg e (a ++ ['.'] ++ b) := by
  have hsep : Separates e ['.'] := by cases e <;> decide
  have hopens := opens_append_separates ha.closed hsep
  have hdot : ∀ t ∈ tokens e ['.'], IsPlain t := by cases e <;> decide
  have htokens : tokens e (a ++ ['.'] ++ b) = tokens e a ++ tokens e ['.'] ++ tokens e b := by
    rw [tokens_append_of_opens hopens, tokens_append_separates ha.closed hsep]
  refine ⟨closed_append_of_opens hopens hb.closed, ?_, ?_⟩
  · rw [htokens, List.forall_mem_append, List.forall_mem_append]
    exact ⟨⟨ha.plain, hdot⟩, hb.plain⟩
  · rw [htokens]
    exact List.append_ne_nil_of_right_ne_nil _ hb.nonempty

theorem oneArg_quoteIdent {name text : String} (h : e.quoteIdent name = .ok text) :
    OneArg e text.toList := by
  obtain ⟨i, hparse, rfl⟩ := Ident.exists_of_quoteIdent h
  have hparts := (Ident.wellFormed_of_parse hparse).nonempty
  rw [Ident.toList_toSql]
  refine Text.intercalate_of_append (fun _ _ => oneArg_dotted) (by simpa using hparts) ?_
  intro cs hcs
  obtain ⟨p, -, rfl⟩ := List.mem_map.mp hcs
  exact oneArg_part p

theorem oneArg_escapeScalar {v : Value} {text : String} (h : e.escapeScalar v = .ok text) :
    OneArg e text.toList := by
  cases v with
  | null =>
    cases h
    cases e <;> exact ⟨by decide, by decide, by decide⟩
  | bool b =>
    cases h
    cases e <;> cases b <;> exact ⟨by decide, by decide, by decide⟩
  | int n =>
    cases h
    obtain ⟨ds, hne, hds, htext⟩ := toList_int n
    rw [htext]
    exact oneArg_signed _ hne hds
  | float x =>
    rw [Engine.escapeScalar] at h
    split at h
    · rename_i hfinite
      cases h
      obtain ⟨ds, hne, hds, htext⟩ := toList_float hfinite
      rw [htext]
      exact oneArg_signed _ hne hds
    · cases h
  | text s =>
    cases h
    exact oneArg_quoteText e s
  | list _ => cases h
  | ident _ => cases h
  | raw _ => cases h

/-- What a list of arguments is among others, where nothing is one empty argument. -/
def taken : List Arg → List Arg
  | [] => [[]]
  | args => args

theorem taken_of_ne_nil {args : List Arg} (h : args ≠ []) : taken args = args := by
  cases args with
  | nil => exact absurd rfl h
  | cons a as => rfl

theorem given_of_ne {args : List Arg} (h : args ≠ [[]]) : given args = args := by
  rw [given]
  exact h

theorem given_taken {args : List Arg} (h : args ≠ [[]]) : given (taken args) = args := by
  cases args with
  | nil => rfl
  | cons a as => exact given_of_ne h

theorem exists_exprs {values : List Value} {texts : List String}
    (h : Forall₂ (fun v t => e.escapeScalar v = .ok t) values texts) :
    ∃ args, Forall₂ (fun v arg => IsExpr arg ∧ ∀ items, v ≠ .list items) values args ∧
      Forall₂ (fun t arg => ReadsAs e t.toList [arg]) texts args := by
  induction h with
  | nil => exact ⟨[], .nil, .nil⟩
  | @cons v t values texts ht _ ih =>
    obtain ⟨args, hvalues, hargs⟩ := ih
    obtain ⟨arg, hexpr, hread⟩ := (oneArg_escapeScalar ht).readsAs
    refine ⟨arg :: args, .cons ⟨hexpr, ?_⟩ hvalues, .cons hread hargs⟩
    rintro items rfl
    cases ht

/-- A list of values is spliced in: it is read as one argument for each of them. -/
theorem readsAs_escapeList {values : List Value} {text : String}
    (h : e.escapeList values = .ok text) :
    ∃ args, Forall₂ (fun v arg => IsExpr arg ∧ ∀ items, v ≠ .list items) values args ∧
      ReadsAs e text.toList (taken args) := by
  obtain ⟨texts, htexts, rfl⟩ := Outcome.exists_of_map_eq_ok h
  obtain ⟨args, hvalues, hargs⟩ := exists_exprs (Outcome.forall₂_of_mapM_eq_ok htexts)
  refine ⟨args, hvalues, ?_⟩
  by_cases hne : args = []
  · subst hne
    cases hargs
    have hempty : ReadsAs e [] [[]] := readsAs_plain trivial (by simp [tokens, State.pending])
    exact hempty
  · have hargss : Forall₂ (fun t as => ReadsAs e t.toList as) texts (args.map fun a => [a]) :=
      List.forall₂_map_right_iff.mpr hargs
    have htextsne : texts ≠ [] := by
      rintro rfl
      cases hargs
      exact hne rfl
    have hflat : (args.map fun a => [a]).flatten = args := by
      rw [← List.flatMap_def, List.flatMap_singleton']
    rw [taken_of_ne_nil hne, ← hflat]
    exact readsAs_commaJoined htextsne hargss

end SqlBuilder.Arguments
