import SqlBuilder.Dialect

/-!
# SQL tokens

How an engine cuts a text into words, quoted texts, quoted names and single characters.
A text that ends outside all quotes can be read apart from what follows, as long as no
word and no quoted text runs on across the seam.
-/
namespace SqlBuilder

namespace Lexer

inductive Token where
  | word (text : List Char)
  | symbol (c : Char)
  /-- A string literal, as the text that it stands for. -/
  | literal (text : List Char)
  | name (text : List Char)
  | unclosed (text : List Char)
  deriving DecidableEq, Repr

/-- Letters, digits, `_`, `$` and all that lies beyond ASCII. -/
def isWordChar (c : Char) : Bool := c.isAlphanum || c = '_' || c = '$' || 127 < c.toNat

def isQuoteMark (c : Char) : Bool := c = '\'' || c = '"' || c = '\x60'

/-- One kind of quotes. A doubled mark always stands for one. -/
structure Quote where
  mark : Char
  /-- A backslash takes the character after it along. -/
  escapes : Bool
  /-- What stands between the marks is a name. -/
  names : Bool
  mark_isQuoteMark : isQuoteMark mark = true := by decide
  deriving DecidableEq, Repr

def Quote.token (q : Quote) (text : List Char) : Token :=
  if q.names then .name text else .literal text

/-- The quotes of a string literal: those of an `E` string when `marked`. -/
def textQuote (e : Engine) (marked : Bool) : Quote :=
  match e with
  | .mysql => ⟨'\'', true, false, rfl⟩
  | .postgres => ⟨'\'', marked, false, rfl⟩

def nameQuote (e : Engine) : Quote := ⟨e.identQuote, false, true, by cases e <;> rfl⟩

/-- The quotes that a mark opens. MySQL also takes `"` for string literals. -/
def opened? (e : Engine) (c : Char) : Option Quote :=
  if c = '\'' then some (textQuote e false)
  else if c = e.identQuote then some (nameQuote e)
  else if c = '"' then some ⟨'"', true, false, rfl⟩
  else none

/-- What a backslash and `c` stand for. Numeric escapes are left as they are. -/
def unescaped (e : Engine) (c : Char) : Char :=
  if c = 'b' then '\x08'
  else if c = 't' then '\t'
  else if c = 'n' then '\n'
  else if c = 'r' then '\r'
  else match e with
    | .mysql => if c = '0' then '\x00' else if c = 'Z' then '\x1a' else c
    | .postgres => if c = 'f' then '\x0c' else c

/-- Where a scan stands. A quoted text is over only when the next character is seen. -/
inductive State where
  | between
  | word (text : List Char)
  | inside (q : Quote) (text : List Char)
  | escaped (q : Quote) (text : List Char)
  | closing (q : Quote) (text : List Char)
  deriving DecidableEq, Repr

/-- The `E` of a PostgreSQL string with escapes is no word. -/
def marksEscapes (e : Engine) (word : List Char) (c : Char) : Bool :=
  e = .postgres && (word = ['E'] || word = ['e']) && c = '\''

def first (e : Engine) (c : Char) : List Token × State :=
  if isWordChar c then ([], .word [c])
  else match opened? e c with
    | some q => ([], .inside q [])
    | none => ([.symbol c], .between)

/-- The token that a state stands for when nothing follows. -/
def State.pending : State → List Token
  | .between => []
  | .word t => [.word t]
  | .inside _ t | .escaped _ t => [.unclosed t]
  | .closing q t => [q.token t]

/-- The tokens that a character completes, and where the scan stands after it. -/
def step (e : Engine) : State → Char → List Token × State
  | .inside q t, c =>
    if c = q.mark then ([], .closing q t)
    else if q.escapes && c = '\\' then ([], .escaped q t)
    else ([], .inside q (t ++ [c]))
  | .escaped q t, c => ([], .inside q (t ++ [unescaped e c]))
  | .between, c => first e c
  | .word t, c =>
    if isWordChar c then ([], .word (t ++ [c]))
    else if marksEscapes e t c then ([], .inside (textQuote e true) [])
    else (.word t :: (first e c).1, (first e c).2)
  | .closing q t, c =>
    if c = q.mark then ([], .inside q (t ++ [c]))
    else (q.token t :: (first e c).1, (first e c).2)

def scan (e : Engine) (s : State) : List Char → List Token × State
  | [] => ([], s)
  | c :: cs =>
    let (ts, s) := step e s c
    let (us, s) := scan e s cs
    (ts ++ us, s)

def tokens (e : Engine) (cs : List Char) : List Token :=
  (scan e .between cs).1 ++ (scan e .between cs).2.pending

def State.Settled : State → Prop
  | .inside .. | .escaped .. => False
  | _ => True

/-- The text ends outside all quotes that it opens. -/
def Closed (e : Engine) (cs : List Char) : Prop := (scan e .between cs).2.Settled

instance : DecidablePred State.Settled
  | .inside .. | .escaped .. => .isFalse id
  | .between | .word _ | .closing .. => .isTrue trivial

instance (e : Engine) (cs : List Char) : Decidable (Closed e cs) :=
  inferInstanceAs (Decidable (State.Settled _))

/-- A character that is a token of its own, whatever stands before it outside quotes. -/
def isSymbol (c : Char) : Bool := !isWordChar c && !isQuoteMark c

@[simp] theorem scan_nil (e : Engine) (s : State) : scan e s [] = ([], s) := rfl

theorem scan_cons (e : Engine) (s : State) (c : Char) (cs : List Char) :
    scan e s (c :: cs) =
      ((step e s c).1 ++ (scan e (step e s c).2 cs).1, (scan e (step e s c).2 cs).2) := rfl

theorem scan_append (e : Engine) (s : State) (cs ds : List Char) :
    scan e s (cs ++ ds) =
      ((scan e s cs).1 ++ (scan e (scan e s cs).2 ds).1, (scan e (scan e s cs).2 ds).2) := by
  induction cs generalizing s with
  | nil => simp
  | cons c cs ih => simp only [List.cons_append, scan_cons, ih, List.append_assoc]

theorem opened?_eq_none {e : Engine} {c : Char} (h : isQuoteMark c = false) :
    opened? e c = none := by
  simp only [isQuoteMark, Bool.or_eq_false_iff, decide_eq_false_iff_not] at h
  cases e <;> simp [opened?, Engine.identQuote, h]

theorem first_symbol (e : Engine) {c : Char} (h : isSymbol c = true) :
    first e c = ([.symbol c], .between) := by
  simp only [isSymbol, Bool.and_eq_true, Bool.not_eq_true'] at h
  simp [first, h.1, opened?_eq_none h.2]

theorem not_isQuoteMark {c : Char} (h : isSymbol c = true) : isQuoteMark c = false := by
  simp only [isSymbol, Bool.and_eq_true, Bool.not_eq_true'] at h
  exact h.2

theorem ne_mark {c : Char} (h : isSymbol c = true) (q : Quote) : c ≠ q.mark := by
  rintro rfl
  have := not_isQuoteMark h
  rw [q.mark_isQuoteMark] at this
  exact absurd this (by decide)

theorem step_symbol (e : Engine) {s : State} {c : Char} (hs : s.Settled)
    (h : isSymbol c = true) : step e s c = (s.pending ++ [.symbol c], .between) := by
  have hf := first_symbol e h
  cases s with
  | between => simpa [step, State.pending] using hf
  | word t =>
    have hw : isWordChar c = false := by simp_all [isSymbol]
    have hm : marksEscapes e t c = false := by
      have : c ≠ '\'' := by rintro rfl; exact absurd h (by decide)
      simp [marksEscapes, this]
    simp [step, hw, hm, hf, State.pending]
  | closing q t => simp [step, ne_mark h q, hf, State.pending]
  | inside q t => exact hs.elim
  | escaped q t => exact hs.elim

theorem scan_symbol (e : Engine) {s : State} {c : Char} (hs : s.Settled)
    (h : isSymbol c = true) (cs : List Char) :
    scan e s (c :: cs) =
      (s.pending ++ .symbol c :: (scan e .between cs).1, (scan e .between cs).2) := by
  simp [scan_cons, step_symbol e hs h]

theorem scan_symbol_alone (e : Engine) {s : State} {c : Char} (hs : s.Settled)
    (h : isSymbol c = true) : scan e s [c] = (s.pending ++ [.symbol c], .between) :=
  scan_symbol e hs h []

theorem settled_step {e : Engine} {s : State} {c : Char} (hs : s.Settled)
    (h : isQuoteMark c = false) : (step e s c).2.Settled := by
  have hf : (first e c).2.Settled := by
    rw [first]
    split
    · trivial
    · rw [opened?_eq_none h]; trivial
  cases s with
  | between => exact hf
  | word t =>
    have hm : marksEscapes e t c = false := by
      have : c ≠ '\'' := by rintro rfl; exact absurd h (by decide)
      simp [marksEscapes, this]
    by_cases hw : isWordChar c = true
    · simp [step, hw, State.Settled]
    · simpa [step, hw, hm] using hf
  | closing q t =>
    have hq : c ≠ q.mark := by
      rintro rfl
      rw [q.mark_isQuoteMark] at h
      exact absurd h (by decide)
    simpa [step, hq] using hf
  | inside q t => exact hs.elim
  | escaped q t => exact hs.elim

/-- Text in which no quotes open. -/
def QuoteFree (cs : List Char) : Prop := ∀ c ∈ cs, isQuoteMark c = false

instance (cs : List Char) : Decidable (QuoteFree cs) :=
  List.decidableBAll (isQuoteMark · = false) cs

@[simp] theorem quoteFree_cons {c : Char} {cs : List Char} :
    QuoteFree (c :: cs) ↔ isQuoteMark c = false ∧ QuoteFree cs := by
  simp [QuoteFree]

@[simp] theorem quoteFree_append {cs ds : List Char} :
    QuoteFree (cs ++ ds) ↔ QuoteFree cs ∧ QuoteFree ds := by
  simp only [QuoteFree, List.mem_append, or_imp, forall_and]

theorem settled_scan {e : Engine} {s : State} {cs : List Char} (hs : s.Settled)
    (h : QuoteFree cs) : (scan e s cs).2.Settled := by
  induction cs generalizing s with
  | nil => exact hs
  | cons c cs ih =>
    rw [quoteFree_cons] at h
    exact ih (settled_step hs h.1) h.2

theorem closed_of_quoteFree (e : Engine) {cs : List Char} (h : QuoteFree cs) : Closed e cs :=
  settled_scan trivial h

/-- The text starts with a symbol, and a scan of it ends between two tokens. -/
def Separates (e : Engine) (g : List Char) : Prop :=
  (∃ c cs, g = c :: cs ∧ isSymbol c = true) ∧ (scan e .between g).2 = .between

/-- A scan of the text ends between two tokens. -/
def Opens (e : Engine) (g : List Char) : Prop := (scan e .between g).2 = .between

instance (e : Engine) : (g : List Char) → Decidable (Separates e g)
  | [] => .isFalse fun ⟨⟨_, _, h, _⟩, _⟩ => List.cons_ne_nil _ _ h.symm
  | c :: cs => decidable_of_iff
      (isSymbol c = true ∧ (scan e .between (c :: cs)).2 = .between)
      ⟨fun ⟨hc, hb⟩ => ⟨⟨c, cs, rfl, hc⟩, hb⟩,
        fun ⟨⟨_, _, h, hc⟩, hb⟩ => ⟨(List.cons.inj h).1 ▸ hc, hb⟩⟩

instance (e : Engine) (g : List Char) : Decidable (Opens e g) :=
  inferInstanceAs (Decidable (_ = _))

theorem Separates.opens {e : Engine} {g : List Char} (h : Separates e g) : Opens e g := h.2

theorem tokens_append_of_opens {e : Engine} {g cs : List Char} (h : Opens e g) :
    tokens e (g ++ cs) = tokens e g ++ tokens e cs := by
  have h : (scan e .between g).2 = .between := h
  simp [tokens, scan_append, h, State.pending]

theorem closed_append_of_opens {e : Engine} {g cs : List Char} (h : Opens e g)
    (hc : Closed e cs) : Closed e (g ++ cs) := by
  have h : (scan e .between g).2 = .between := h
  simpa [Closed, scan_append, h] using hc

theorem tokens_append_symbol {e : Engine} {cs ds : List Char} {c : Char} (hc : Closed e cs)
    (h : isSymbol c = true) : tokens e (cs ++ c :: ds) = tokens e cs ++ tokens e (c :: ds) := by
  have hb := scan_symbol e (s := .between) trivial h ds
  simp [tokens, scan_append, scan_symbol e hc h, hb, State.pending]

theorem closed_append_symbol {e : Engine} {cs ds : List Char} {c : Char} (hc : Closed e cs)
    (h : isSymbol c = true) (hd : Closed e (c :: ds)) : Closed e (cs ++ c :: ds) := by
  unfold Closed at *
  rw [scan_symbol e (s := .between) trivial h] at hd
  rwa [scan_append, scan_symbol e hc h]

theorem scan_separates {e : Engine} {s : State} {g : List Char} (hs : s.Settled)
    (h : Separates e g) : scan e s g = (s.pending ++ (scan e .between g).1, .between) := by
  obtain ⟨⟨c, cs, rfl, hc⟩, hb⟩ := h
  have hf := scan_symbol e (s := .between) trivial hc cs
  rw [hf] at hb ⊢
  rw [scan_symbol e hs hc]
  exact Prod.ext rfl hb

theorem opens_append_separates {e : Engine} {cs g : List Char} (hc : Closed e cs)
    (h : Separates e g) : Opens e (cs ++ g) := by
  rw [Opens]
  rw [scan_append, scan_separates hc h]

theorem tokens_append_separates {e : Engine} {cs g : List Char} (hc : Closed e cs)
    (h : Separates e g) : tokens e (cs ++ g) = tokens e cs ++ tokens e g := by
  obtain ⟨⟨c, ds, rfl, hs⟩, -⟩ := h
  exact tokens_append_symbol hc hs

theorem eq_of_symbol_mem_step {e : Engine} {s : State} {c d : Char}
    (h : .symbol d ∈ (step e s c).1) :
    d = c := by
  have hfirst (h : .symbol d ∈ (first e c).1) : d = c := by
    rw [first] at h
    split at h
    · cases h
    · split at h
      · cases h
      · simpa using h
  cases s with
  | between => exact hfirst h
  | word u =>
    rw [step] at h
    split at h
    · cases h
    · split at h
      · cases h
      · simpa using hfirst (by simpa using h)
  | inside q u =>
    rw [step] at h
    split at h
    · cases h
    · split at h <;> cases h
  | escaped q u => cases h
  | closing q u =>
    rw [step] at h
    split at h
    · cases h
    · rw [Quote.token] at h
      split at h <;> exact hfirst (by simpa using h)

theorem mem_of_symbol_mem_scan {e : Engine} {s : State} {cs : List Char} {d : Char}
    (h : .symbol d ∈ (scan e s cs).1) : d ∈ cs := by
  induction cs generalizing s with
  | nil => cases h
  | cons c cs ih =>
    rw [scan_cons, List.mem_append] at h
    rcases h with h | h
    · rw [eq_of_symbol_mem_step h]
      exact List.mem_cons_self
    · exact List.mem_cons_of_mem _ (ih h)

theorem symbol_notMem_pending (s : State) (d : Char) : .symbol d ∉ s.pending := by
  cases s with
  | closing q u =>
    rw [State.pending, Quote.token]
    split <;> simp
  | _ => simp [State.pending]

theorem mem_of_symbol_mem {e : Engine} {cs : List Char} {d : Char}
    (h : .symbol d ∈ tokens e cs) : d ∈ cs := by
  rw [tokens, List.mem_append] at h
  rcases h with h | h
  · exact mem_of_symbol_mem_scan h
  · exact absurd h (symbol_notMem_pending _ d)

theorem step_shows (e : Engine) (s : State) (c : Char) :
    (step e s c).1 ++ (step e s c).2.pending ≠ [] := by
  have hfirst : (first e c).1 ++ (first e c).2.pending ≠ [] := by
    rw [first]
    split
    · simp [State.pending]
    · split <;> simp [State.pending]
  cases s with
  | between => exact hfirst
  | word u =>
    rw [step]
    split
    · simp [State.pending]
    · split <;> simp [State.pending]
  | inside q u =>
    rw [step]
    split
    · simp [State.pending]
    · split <;> simp [State.pending]
  | escaped q u => simp [step, State.pending]
  | closing q u =>
    rw [step]
    split <;> simp [State.pending]

/-- A scan loses nothing: what it has seen is a token or is pending. -/
theorem scan_shows {e : Engine} {s : State} {cs : List Char} (h : cs ≠ [] ∨ s.pending ≠ []) :
    (scan e s cs).1 ++ (scan e s cs).2.pending ≠ [] := by
  induction cs generalizing s with
  | nil => exact h.resolve_left fun hne => hne rfl
  | cons c cs ih =>
    rw [scan_cons, List.append_assoc]
    by_cases hnext : (step e s c).2.pending = []
    · have hshows := step_shows e s c
      rw [hnext, List.append_nil] at hshows
      exact List.append_ne_nil_of_left_ne_nil hshows _
    · exact List.append_ne_nil_of_right_ne_nil _ (ih (.inr hnext))

theorem tokens_ne_nil {e : Engine} {cs : List Char} (h : cs ≠ []) : tokens e cs ≠ [] :=
  scan_shows (.inl h)

end Lexer

end SqlBuilder
