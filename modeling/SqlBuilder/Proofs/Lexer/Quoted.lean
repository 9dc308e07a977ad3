import Mathlib.Tactic.SplitIfs
import SqlBuilder.Literal
import SqlBuilder.Proofs.Lexer

/-!
# Reading quoted text back

A literal is one token that stands for its text, and a quoted identifier ends outside
quotes, wherever a quote may open. Texts of numbers open no quotes at all.
-/
namespace SqlBuilder.Lexer

variable {e : Engine} {s : State}

/-- Where a literal or a name may begin as a token of its own. -/
def Free (e : Engine) (s : State) : Prop := s = .between ∨ ∃ t, s = .closing (nameQuote e) t

theorem Free.settled (h : Free e s) : s.Settled := by
  rcases h with rfl | ⟨t, rfl⟩ <;> trivial

def marked (e : Engine) (cs : List Char) : Bool := e = .postgres && decide ('\\' ∈ cs)

theorem scan_mysqlChar (b : Bool) (c : Char) (t : List Char) :
    scan .mysql (.inside (textQuote .mysql b) t) (Engine.mysqlChar c) =
      ([], .inside (textQuote .mysql b) (t ++ [c])) := by
  rw [Engine.mysqlChar]
  split_ifs with h₁ h₂ h₃ h₄ h₅ h₆ h₇ h₈ h₉
  case neg => simp [scan_cons, step, textQuote, h₈, h₉]
  all_goals subst c; rfl

theorem scan_postgresChar {b : Bool} {c : Char} (h : c = '\\' → b = true) (t : List Char) :
    scan .postgres (.inside (textQuote .postgres b) t) (Engine.postgresChar c) =
      ([], .inside (textQuote .postgres b) (t ++ [c])) := by
  rw [Engine.postgresChar]
  split_ifs with h₁ h₂
  · subst c; rfl
  · subst c; rw [h rfl]; rfl
  · simp [scan_cons, step, textQuote, h₁, h₂]

/-- What is written for a text inside quotes is read as that text. -/
theorem scan_flatMap_char {q : Quote} {write : Char → List Char} {cs : List Char}
    (h : ∀ c ∈ cs, ∀ t, scan e (.inside q t) (write c) = ([], .inside q (t ++ [c])))
    (t : List Char) : scan e (.inside q t) (cs.flatMap write) = ([], .inside q (t ++ cs)) := by
  induction cs generalizing t with
  | nil => simp
  | cons c cs ih =>
    rw [List.flatMap_cons, scan_append, h c (by simp), ih fun d hd => h d (by simp [hd])]
    simp

theorem scan_mark (q : Quote) (t : List Char) :
    scan e (.inside q t) [q.mark] = ([], .closing q t) := by
  simp [scan_cons, step]

theorem step_free (h : Free e s) {c : Char} (hc : c ≠ e.identQuote) :
    step e s c = (s.pending ++ (first e c).1, (first e c).2) := by
  rcases h with rfl | ⟨t, rfl⟩
  · simp [step, State.pending]
  · simp [step, nameQuote, hc, State.pending, Quote.token]

theorem scan_textBody {q : Quote} (hq : q.mark = '\'') {write : Char → List Char}
    (cs : List Char)
    (h : ∀ c ∈ cs, ∀ t, scan e (.inside q t) (write c) = ([], .inside q (t ++ [c]))) :
    scan e (.inside q []) (cs.flatMap write ++ ['\'']) = ([], .closing q cs) := by
  rw [scan_append, scan_flatMap_char h, ← hq, scan_mark]
  rfl

theorem mark_textQuote (e : Engine) (b : Bool) : (textQuote e b).mark = '\'' := by
  cases e <;> rfl

theorem first_textMark (e : Engine) : first e '\'' = ([], .inside (textQuote e false) []) := by
  cases e <;> rfl

theorem scan_opening (h : Free e s) (cs : List Char) :
    scan e s ('\'' :: cs) =
      (s.pending ++ (scan e (.inside (textQuote e false) []) cs).1,
        (scan e (.inside (textQuote e false) []) cs).2) := by
  have hq : '\'' ≠ e.identQuote := by cases e <;> decide
  simp [scan_cons, step_free h hq, first_textMark]

theorem scan_markedOpening (h : Free .postgres s) (cs : List Char) :
    scan .postgres s ('E' :: '\'' :: cs) =
      (s.pending ++ (scan .postgres (.inside (textQuote .postgres true) []) cs).1,
        (scan .postgres (.inside (textQuote .postgres true) []) cs).2) := by
  have hf : first .postgres 'E' = ([], .word ['E']) := rfl
  have hs : step .postgres (.word ['E']) '\'' = ([], .inside (textQuote .postgres true) []) := rfl
  simp [scan_cons, step_free h (show 'E' ≠ Engine.postgres.identQuote by decide), hf, hs]

theorem scan_quoteChars (h : Free e s) (cs : List Char) :
    scan e s (e.quoteChars cs) = (s.pending, .closing (textQuote e (marked e cs)) cs) := by
  cases e with
  | mysql =>
    have hb := scan_textBody (e := .mysql) (q := textQuote .mysql false) rfl
      cs fun c _ => scan_mysqlChar false c
    have hm : textQuote .mysql (marked .mysql cs) = textQuote .mysql false := rfl
    simp [Engine.quoteChars, scan_opening h, hb, hm]
  | postgres =>
    by_cases hm : '\\' ∈ cs
    · have hb := scan_textBody (e := .postgres) (q := textQuote .postgres true) rfl
        cs fun c _ => scan_postgresChar fun _ => rfl
      simp [Engine.quoteChars, hm, scan_markedOpening h, hb, marked]
    · have hb := scan_textBody (e := .postgres) (q := textQuote .postgres false) rfl
        cs fun c hc => scan_postgresChar fun h => absurd (h ▸ hc) hm
      simp [Engine.quoteChars, hm, scan_opening h, hb, marked]

/-- A quoted name reads back as the name, and a quote of its kind may run on behind it. -/
theorem scan_doubled (cs t : List Char) :
    scan e (.inside (nameQuote e) t) (Ident.doubled e.identQuote cs) =
      ([], .inside (nameQuote e) (t ++ cs)) := by
  refine scan_flatMap_char (fun c _ t => ?_) t
  by_cases hc : c = e.identQuote
  · subst hc; simp [scan_cons, step, nameQuote]
  · simp [scan_cons, step, nameQuote, hc]

theorem step_identQuote (h : Free e s) :
    ∃ t, (step e s e.identQuote).2 = .inside (nameQuote e) t := by
  rcases h with rfl | ⟨t, rfl⟩
  · exact ⟨[], by cases e <;> rfl⟩
  · exact ⟨t ++ [e.identQuote], by simp [step, nameQuote]⟩

theorem free_quotedName (h : Free e s) (name : String) :
    Free e (scan e s (Ident.quotedName e.identQuote name).toList).2 := by
  obtain ⟨t, ht⟩ := step_identQuote h
  have hm := scan_mark (e := e) (nameQuote e) (t ++ name.toList)
  simp only [Ident.quotedName, String.toList_ofList, List.cons_append, scan_cons, ht,
    scan_append, scan_doubled]
  exact .inr ⟨_, congrArg Prod.snd hm⟩

theorem free_symbol (h : Free e s) {c : Char} (hc : isSymbol c = true) (cs : List Char) :
    (scan e s (c :: cs)).2 = (scan e .between cs).2 := by
  rw [scan_symbol e h.settled hc]

theorem free_part (h : Free e s) (p : Ident.Part) :
    Free e (scan e s (p.toSql e.identQuote).toList).2 := by
  cases p with
  | name text => exact free_quotedName h text
  | wildcard =>
    have : (scan e s "*".toList).2 = .between := free_symbol h (by decide) []
    exact .inl this

theorem free_intercalate {sep : List Char} (hsep : Separates e sep) {texts : List (List Char)}
    (h : ∀ p ∈ texts, ∀ s, Free e s → Free e (scan e s p).2) (hs : Free e s) :
    Free e (scan e s (sep.intercalate texts)).2 := by
  induction texts generalizing s with
  | nil => simpa using hs
  | cons p ps ih =>
    cases ps with
    | nil => simpa using h p (by simp) s hs
    | cons q qs =>
      have hp := h p (by simp) s hs
      rw [List.intercalate_cons_cons, scan_append, scan_append, scan_separates hp.settled hsep]
      exact ih (fun r hr => h r (by simp [hr])) (.inl rfl)

theorem free_toSql (h : Free e s) (i : Ident) :
    Free e (scan e s (i.toSql e.identQuote).toList).2 := by
  have hd : Separates e ".".toList := by cases e <;> decide
  rw [Ident.toSql, String.toList_intercalate, List.map_map]
  refine free_intercalate hd (fun p hp s hs => ?_) h
  obtain ⟨part, -, rfl⟩ := List.mem_map.mp hp
  exact free_part hs part

theorem free_quoteIdent (h : Free e s) {name text : String} (ht : e.quoteIdent name = .ok text) :
    Free e (scan e s text.toList).2 := by
  rw [Engine.quoteIdent] at ht
  split at ht
  · cases ht; exact free_toSql h _
  · cases ht

/-- Digits, and points perhaps. -/
def Numeral (cs : List Char) : Prop := ∀ c ∈ cs, c.isDigit = true ∨ c = '.'

theorem numeral_append {cs ds : List Char} (hc : Numeral cs) (hd : Numeral ds) :
    Numeral (cs ++ ds) := by
  intro c h
  rcases List.mem_append.mp h with h | h
  · exact hc c h
  · exact hd c h

theorem numeral_cons {c : Char} (hc : c.isDigit = true ∨ c = '.') {cs : List Char}
    (h : Numeral cs) : Numeral (c :: cs) := by
  intro d hd
  rcases List.mem_cons.mp hd with rfl | hd
  · exact hc
  · exact h d hd

theorem not_mem_of_numeral {c : Char} (hc : c.isDigit = false) (hpoint : c ≠ '.')
    {cs : List Char} (h : Numeral cs) : c ∉ cs := by
  intro hmem
  rcases h c hmem with hdigit | hp
  · rw [hc] at hdigit
    cases hdigit
  · exact hpoint hp

theorem quoteFree_of_numeral {cs : List Char} (h : Numeral cs) : QuoteFree cs := by
  intro c hc
  simp only [isQuoteMark, Bool.or_eq_false_iff, decide_eq_false_iff_not]
  refine ⟨⟨?_, ?_⟩, ?_⟩
  all_goals
    rintro rfl
    exact not_mem_of_numeral (by decide) (by decide) h hc

theorem numeral_toDigits (n : Nat) : Numeral (Nat.toDigits 10 n) := fun _ hc =>
  .inl (Nat.isDigit_of_mem_toDigits (by decide) (by decide) hc)

theorem toDigits_ne_nil (n : Nat) : Nat.toDigits 10 n ≠ [] :=
  List.ne_nil_of_length_pos Nat.length_toDigits_pos

theorem toList_nat (n : Nat) : (toString n).toList = Nat.toDigits 10 n := by
  rw [Nat.toString_eq_repr, Nat.toList_repr]

theorem quoteFree_nat (n : Nat) : QuoteFree (toString n).toList := by
  rw [toList_nat]
  exact quoteFree_of_numeral (numeral_toDigits n)

def sign (negative : Bool) : List Char := if negative then ['-'] else []

theorem quoteFree_signed (negative : Bool) {ds : List Char} (h : Numeral ds) :
    QuoteFree (sign negative ++ ds) := by
  refine quoteFree_append.mpr ⟨?_, quoteFree_of_numeral h⟩
  cases negative <;> decide

theorem toList_int (n : Int) :
    ∃ ds, ds ≠ [] ∧ Numeral ds ∧ (toString n).toList = sign (decide (n < 0)) ++ ds := by
  cases n with
  | ofNat n => exact ⟨_, toDigits_ne_nil n, numeral_toDigits n, toList_nat n⟩
  | negSucc n =>
    refine ⟨_, toDigits_ne_nil (n + 1), numeral_toDigits (n + 1), ?_⟩
    rw [Int.toString_eq_repr, Int.repr, String.toList_append, ← toList_nat (n + 1),
      Nat.toString_eq_repr, decide_eq_true (Int.negSucc_lt_zero n)]
    rfl

theorem quoteFree_int (n : Int) : QuoteFree (toString n).toList := by
  obtain ⟨ds, -, hds, hn⟩ := toList_int n
  rw [hn]
  exact quoteFree_signed _ hds

open Decimal

theorem numeral_zeros (n : Nat) : Numeral (zeros n) := by
  intro c hc
  rw [List.eq_of_mem_replicate hc]
  exact .inl (by decide)

theorem numeral_significant (s : Scaled) : Numeral (significant s).1 := by
  intro c hc
  have hc : c ∈ ((Nat.toDigits 10 s.digits).reverse.dropWhile (· = '0')).reverse := hc
  have hd := (List.dropWhile_sublist _).subset (List.mem_reverse.mp hc)
  exact numeral_toDigits _ c (List.mem_reverse.mp hd)

theorem numeral_positionalText {ds : List Char} (h : Numeral ds) (k : Int) :
    Numeral (positionalText false ds k) := by
  have htake (n : Nat) : Numeral (ds.take n) := fun c hc => h c (List.mem_of_mem_take hc)
  have hdrop (n : Nat) : Numeral (ds.drop n) := fun c hc => h c (List.mem_of_mem_drop hc)
  have hzeros (n : Nat) : Numeral (zeros n ++ ds) := numeral_append (numeral_zeros n) h
  unfold positionalText
  simp only [Bool.false_eq_true, if_false, List.append_nil]
  split_ifs
  · exact numeral_cons (.inl (by decide)) (numeral_cons (.inr rfl) (hzeros _))
  · exact numeral_append h (numeral_zeros _)
  · exact numeral_append (htake _) (numeral_cons (.inr rfl) (hdrop _))

theorem positionalText_ne_nil (ds : List Char) (k : Int) : positionalText false ds k ≠ [] := by
  unfold positionalText
  simp only [Bool.false_eq_true, if_false, List.append_nil]
  split_ifs with hwhole hk
  · simp
  · intro hnil
    have hlength := congrArg List.length hnil
    rw [List.length_append, zeros, List.length_replicate, List.length_nil] at hlength
    rw [Int.ofNat_eq_natCast] at hwhole
    omega
  · simp

theorem toList_float {x : Float} (hx : isFinite x = true) :
    ∃ ds, ds ≠ [] ∧ Numeral ds ∧ (Layout.plain.text x).toList = sign (signBit x) ++ ds := by
  unfold Decimal.Layout.text
  dsimp only
  rw [if_pos hx]
  split
  · refine ⟨['0'], by decide, ?_, String.toList_ofList⟩
    exact numeral_cons (.inl (by decide)) fun c hc => absurd hc List.not_mem_nil
  · exact ⟨_, positionalText_ne_nil _ _, numeral_positionalText (numeral_significant _) _,
      String.toList_ofList⟩

theorem quoteFree_float {x : Float} (hx : isFinite x = true) :
    QuoteFree (Layout.plain.text x).toList := by
  obtain ⟨ds, -, hds, htext⟩ := toList_float hx
  rw [htext]
  exact quoteFree_signed _ hds

end SqlBuilder.Lexer
