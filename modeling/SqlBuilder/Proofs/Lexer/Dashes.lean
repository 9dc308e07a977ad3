import SqlBuilder.Proofs.Lexer.Quoted
import SqlBuilder.Proofs.Text

/-!
# Dashes outside quotes

Where a line comment starts, and the texts that can stand anywhere outside quotes without
starting one, whatever the quotes around them.
-/
namespace SqlBuilder.Lexer

variable {e : Engine} {s : State} {a b cs : List Char} {c : Char}

/-- A scan of the text from `s` on meets two dashes outside quotes. -/
def Dashes (e : Engine) (s : State) (cs : List Char) : Prop :=
  ∃ pre post, cs = pre ++ '-' :: '-' :: post ∧ (scan e s pre).2.Settled

/-- The text starts a comment. -/
def HasComment (e : Engine) (cs : List Char) : Prop := Dashes e .between cs

theorem not_dashes_nil : ¬ Dashes e s [] := by
  rintro ⟨pre, post, h, -⟩
  simp at h

theorem dashes_cons : Dashes e s (c :: cs) ↔
    (s.Settled ∧ c = '-' ∧ cs.head? = some '-') ∨ Dashes e (step e s c).2 cs := by
  constructor
  · rintro ⟨pre, post, h, hsettled⟩
    cases pre with
    | nil =>
      cases h
      exact .inl ⟨hsettled, rfl, rfl⟩
    | cons d pre =>
      cases h
      exact .inr ⟨pre, post, rfl, hsettled⟩
  · rintro (⟨hsettled, rfl, hhead⟩ | ⟨pre, post, rfl, hsettled⟩)
    · obtain ⟨post, rfl⟩ := List.head?_eq_some_iff.mp hhead
      exact ⟨[], post, rfl, hsettled⟩
    · exact ⟨c :: pre, post, rfl, hsettled⟩

/-- Behind a text that has none and does not end in one, dashes are those of the rest. -/
theorem dashes_append (ha : ¬ Dashes e s a) (hlast : a.getLast? ≠ some '-') :
    Dashes e s (a ++ b) ↔ Dashes e (scan e s a).2 b := by
  induction a generalizing s with
  | nil => rfl
  | cons c a ih =>
    rw [dashes_cons, not_or] at ha
    obtain ⟨hfirst, hrest⟩ := ha
    rw [List.cons_append, dashes_cons]
    cases a with
    | nil =>
      have hc : c ≠ '-' := fun hc => hlast (congrArg some hc)
      constructor
      · rintro (⟨-, hdash, -⟩ | h)
        · exact absurd hdash hc
        · exact h
      · exact .inr
    | cons d a =>
      rw [ih hrest (by rwa [List.getLast?_cons_cons] at hlast)]
      constructor
      · rintro (h | h)
        · exact absurd h hfirst
        · exact h
      · exact .inr

theorem not_dashes_of_not_mem (h : '-' ∉ cs) : ¬ Dashes e s cs := by
  rintro ⟨pre, post, rfl, -⟩
  simp at h

/-- The engine opens these quotes at their mark, or they are those of an `E` string. -/
def Quote.Native (e : Engine) (q : Quote) : Prop := q = textQuote e true ∨ opened? e q.mark = some q

/-- A state that a scan of some text comes to. -/
def State.Sound (e : Engine) : State → Prop
  | .between => True
  | .word t => t ≠ []
  | .inside q _ | .escaped q _ | .closing q _ => q.Native e

theorem native_of_opened {q : Quote} (h : opened? e c = some q) : q.Native e := by
  have hmark : q.mark = c := by
    rw [opened?] at h
    split_ifs at h with htext hname hdouble
    · cases h
      cases e <;> exact htext.symm
    · cases h
      exact hname.symm
    · cases h
      exact hdouble.symm
  exact .inr (hmark ▸ h)

theorem sound_first (e : Engine) (c : Char) : (first e c).2.Sound e := by
  rw [first]
  by_cases hword : isWordChar c = true
  · rw [if_pos hword]
    exact List.cons_ne_nil c []
  · rw [if_neg hword]
    split
    · rename_i q hq
      exact native_of_opened hq
    · trivial

theorem sound_step (h : s.Sound e) (c : Char) : (step e s c).2.Sound e := by
  have hfirst := sound_first e c
  cases s with
  | between => exact hfirst
  | word t =>
    rw [step]
    by_cases hword : isWordChar c = true
    · rw [if_pos hword]
      simp [State.Sound]
    by_cases hmarks : marksEscapes e t c = true
    · rw [if_neg hword, if_pos hmarks]
      exact .inl rfl
    · rw [if_neg hword, if_neg hmarks]
      exact hfirst
  | inside q t =>
    rw [step]
    split_ifs <;> exact h
  | escaped q t => exact h
  | closing q t =>
    rw [step]
    split_ifs
    · exact h
    · exact hfirst

theorem sound_scan (h : s.Sound e) (cs : List Char) : (scan e s cs).2.Sound e := by
  induction cs generalizing s with
  | nil => exact h
  | cons c cs ih => exact ih (sound_step h c)

/-- A state outside all quotes that a scan of some text comes to. -/
structure Outside (e : Engine) (s : State) : Prop where
  sound : s.Sound e
  settled : s.Settled

theorem not_isWordChar (h : isQuoteMark c = true) : ¬ isWordChar c = true := by
  simp only [isQuoteMark, Bool.or_eq_true, decide_eq_true_eq] at h
  rcases h with (rfl | rfl) | rfl <;> decide

theorem eq_of_marksEscapes {t : List Char} (h : marksEscapes e t c = true) :
    e = .postgres ∧ (t = ['E'] ∨ t = ['e']) ∧ c = '\'' := by
  simpa [marksEscapes, and_assoc] using h

theorem step_textMark (h : Outside e s) :
    ∃ b t, (step e s '\'').2 = .inside (textQuote e b) t := by
  have hfirst := congrArg Prod.snd (first_textMark e)
  obtain ⟨hsound, hsettled⟩ := h
  cases s with
  | between => exact ⟨false, [], hfirst⟩
  | word t =>
    have hword : ¬ isWordChar '\'' = true := by decide
    by_cases hmarks : marksEscapes e t '\'' = true
    · exact ⟨true, [], by rw [step, if_neg hword, if_pos hmarks]⟩
    · exact ⟨false, [], by rw [step, if_neg hword, if_neg hmarks]; exact hfirst⟩
  | closing q t =>
    rw [step]
    by_cases hq : '\'' = q.mark
    · rw [if_pos hq]
      rcases hsound with rfl | hopened
      · exact ⟨true, _, rfl⟩
      · rw [← hq] at hopened
        cases hopened
        exact ⟨false, _, rfl⟩
    · rw [if_neg hq]
      exact ⟨false, [], hfirst⟩
  | inside q t => exact hsettled.elim
  | escaped q t => exact hsettled.elim

theorem step_nameMark (h : Outside e s) :
    ∃ t, (step e s e.identQuote).2 = .inside (nameQuote e) t := by
  have hfirst : (first e e.identQuote).2 = .inside (nameQuote e) [] := by cases e <;> rfl
  obtain ⟨hsound, hsettled⟩ := h
  cases s with
  | between => exact ⟨[], hfirst⟩
  | word t =>
    have hword : ¬ isWordChar e.identQuote = true :=
      not_isWordChar (nameQuote e).mark_isQuoteMark
    have hmarks : ¬ marksEscapes e t e.identQuote = true := by
      intro hmarks
      have hquote := (eq_of_marksEscapes hmarks).2.2
      cases e <;> cases hquote
    exact ⟨[], by rw [step, if_neg hword, if_neg hmarks]; exact hfirst⟩
  | closing q t =>
    rw [step]
    by_cases hq : e.identQuote = q.mark
    · rw [if_pos hq]
      rcases hsound with rfl | hopened
      · cases e <;> cases hq
      · rw [← hq] at hopened
        cases e <;> cases hopened <;> exact ⟨_, rfl⟩
    · rw [if_neg hq]
      exact ⟨[], hfirst⟩
  | inside q t => exact hsettled.elim
  | escaped q t => exact hsettled.elim

/-- No dash of the text is read outside quotes. -/
def Covered (e : Engine) : State → List Char → Prop
  | _, [] => True
  | s, c :: cs => (c = '-' → ¬ s.Settled) ∧ Covered e (step e s c).2 cs

theorem covered_append : Covered e s (a ++ b) ↔ Covered e s a ∧ Covered e (scan e s a).2 b := by
  induction a generalizing s with
  | nil => exact ⟨fun h => ⟨trivial, h⟩, fun h => h.2⟩
  | cons c a ih =>
    rw [List.cons_append, Covered, Covered, ih, and_assoc]
    rfl

theorem covered_of_not_mem (h : '-' ∉ cs) : Covered e s cs := by
  induction cs generalizing s with
  | nil => trivial
  | cons c cs ih =>
    rw [List.mem_cons, not_or] at h
    exact ⟨fun hc => absurd hc.symm h.1, ih h.2⟩

theorem not_dashes_of_covered (h : Covered e s cs) : ¬ Dashes e s cs := by
  induction cs generalizing s with
  | nil => exact not_dashes_nil
  | cons c cs ih =>
    rw [dashes_cons]
    rintro (⟨hsettled, hc, -⟩ | hrest)
    · exact h.1 hc hsettled
    · exact ih h.2 hrest

/-- The text leaves the quotes open, and no dash of it is read outside them. -/
structure Within (e : Engine) (q : Quote) (cs : List Char) : Prop where
  stays : ∀ t, ∃ t', (scan e (.inside q t) cs).2 = .inside q t'
  covered : ∀ t, Covered e (.inside q t) cs

theorem Within.append {q : Quote} (ha : Within e q a) (hb : Within e q b) :
    Within e q (a ++ b) := by
  constructor
  · intro t
    obtain ⟨t', ht'⟩ := ha.stays t
    rw [scan_append, ht']
    exact hb.stays t'
  · intro t
    obtain ⟨t', ht'⟩ := ha.stays t
    rw [covered_append, ht']
    exact ⟨ha.covered t, hb.covered t'⟩

theorem Within.flatMap {q : Quote} {write : Char → List Char} (h : ∀ c, Within e q (write c))
    (cs : List Char) : Within e q (cs.flatMap write) := by
  induction cs with
  | nil => exact ⟨fun t => ⟨t, rfl⟩, fun _ => trivial⟩
  | cons c cs ih =>
    rw [List.flatMap_cons]
    exact (h c).append ih

theorem within_singleton {q : Quote} (hmark : c ≠ q.mark) (hescape : q.escapes = true → c ≠ '\\') :
    Within e q [c] := by
  have hstep (t : List Char) : (step e (.inside q t) c).2 = .inside q (t ++ [c]) := by
    rw [step, if_neg hmark, if_neg]
    intro h
    rw [Bool.and_eq_true, decide_eq_true_eq] at h
    exact hescape h.1 h.2
  exact ⟨fun t => ⟨_, hstep t⟩, fun t => ⟨fun _ hsettled => hsettled, trivial⟩⟩

theorem within_mysqlChar (b : Bool) (c : Char) :
    Within .mysql (textQuote .mysql b) (Engine.mysqlChar c) := by
  have hstays (t : List Char) := congrArg Prod.snd (scan_mysqlChar b c t)
  refine ⟨fun t => ⟨_, hstays t⟩, fun t => ?_⟩
  by_cases hc : c = '-'
  · subst hc
    exact ⟨fun _ hsettled => hsettled, trivial⟩
  · apply covered_of_not_mem
    rw [Engine.mysqlChar]
    split_ifs <;> simp [Ne.symm hc]

/-- Quotes and backslashes are written twice, which is read alike in both kinds of literals. -/
theorem within_postgresChar (b : Bool) (c : Char) :
    Within .postgres (textQuote .postgres b) (Engine.postgresChar c) := by
  rw [Engine.postgresChar]
  by_cases hquote : c = '\''
  · rw [if_pos hquote]
    exact ⟨fun t => ⟨_, rfl⟩, fun t => covered_of_not_mem (by decide)⟩
  by_cases hslash : c = '\\'
  · rw [if_neg hquote, if_pos hslash]
    refine ⟨fun t => ?_, fun t => covered_of_not_mem (by decide)⟩
    cases b <;> exact ⟨_, rfl⟩
  · rw [if_neg hquote, if_neg hslash]
    exact within_singleton hquote fun _ => hslash

theorem within_doubled (cs : List Char) :
    Within e (nameQuote e) (Ident.doubled e.identQuote cs) := by
  refine Within.flatMap (fun c => ?_) cs
  by_cases hc : c = e.identQuote
  · rw [if_pos hc, hc]
    refine ⟨fun t => ⟨t ++ [e.identQuote], ?_⟩, fun t => covered_of_not_mem ?_⟩
    · simp [scan_cons, step, nameQuote]
    · cases e <;> decide
  · rw [if_neg hc]
    exact within_singleton hc fun h => by cases h

/-- Wherever outside quotes the text stands, it ends outside quotes, has no comment and leaves no
dash for what follows. -/
structure Clean (e : Engine) (cs : List Char) : Prop where
  settled : ∀ s, Outside e s → (scan e s cs).2.Settled
  dashes : ∀ s, Outside e s → ¬ Dashes e s cs
  last : cs.getLast? ≠ some '-'

namespace Clean

theorem outside (h : Clean e cs) (hs : Outside e s) : Outside e (scan e s cs).2 :=
  ⟨sound_scan hs.sound cs, h.settled s hs⟩

theorem nil : Clean e [] := ⟨fun _ hs => hs.settled, fun _ _ => not_dashes_nil, by simp⟩

theorem append (ha : Clean e a) (hb : Clean e b) : Clean e (a ++ b) := by
  refine ⟨fun s hs => ?_, fun s hs => ?_, ?_⟩
  · rw [scan_append]
    exact hb.settled _ (ha.outside hs)
  · rw [dashes_append (ha.dashes s hs) ha.last]
    exact hb.dashes _ (ha.outside hs)
  · rw [List.getLast?_append]
    cases hlast : b.getLast? with
    | none => exact ha.last
    | some c => exact fun h => hb.last (hlast.trans h)

theorem of_quoteFree (hquotes : QuoteFree cs) (hdashes : '-' ∉ cs) : Clean e cs :=
  ⟨fun _ hs => settled_scan hs.settled hquotes, fun _ _ => not_dashes_of_not_mem hdashes,
    fun h => hdashes (List.mem_of_getLast? h)⟩

theorem signed (negative : Bool) {ds : List Char} (hne : ds ≠ []) (h : Numeral ds) :
    Clean e (sign negative ++ ds) := by
  have hdigits : '-' ∉ ds := not_mem_of_numeral (by decide) (by decide) h
  cases negative with
  | false => exact of_quoteFree (quoteFree_of_numeral h) hdigits
  | true =>
    refine ⟨fun s hs => settled_scan hs.settled (quoteFree_signed true h), fun s _ => ?_, ?_⟩
    · rw [sign, if_pos rfl, List.singleton_append, dashes_cons]
      rintro (⟨-, -, hhead⟩ | hrest)
      · exact hdigits (List.mem_of_head? hhead)
      · exact not_dashes_of_not_mem hdigits hrest
    · intro hlast
      rw [List.getLast?_append, Option.or_of_isSome (by simpa using hne)] at hlast
      exact hdigits (List.mem_of_getLast? hlast)

/-- What stands between quotes starts no comment, since the quotes close only at the end. -/
theorem quoted (hmark : isQuoteMark c = true) {body : List Char}
    (h : ∀ s, Outside e s → ∃ q t, (step e s c).2 = .inside q t ∧ q.mark = c ∧ Within e q body) :
    Clean e (c :: body ++ [c]) := by
  have hdash : c ≠ '-' := by
    rintro rfl
    cases hmark
  refine ⟨fun s hs => ?_, fun s hs => not_dashes_of_covered ?_, ?_⟩
  · obtain ⟨q, t, hopen, rfl, hbody⟩ := h s hs
    obtain ⟨t', ht'⟩ := hbody.stays t
    rw [List.cons_append, scan_cons, hopen, scan_append, ht', scan_mark]
    trivial
  · obtain ⟨q, t, hopen, rfl, hbody⟩ := h s hs
    refine ⟨fun hc => absurd hc hdash, ?_⟩
    rw [hopen]
    exact covered_append.mpr ⟨hbody.covered t, fun hc => absurd hc hdash, trivial⟩
  · rw [List.getLast?_concat]
    exact fun hc => hdash (Option.some.inj hc)

theorem literal {body : List Char} (h : ∀ b, Within e (textQuote e b) body) :
    Clean e ('\'' :: body ++ ['\'']) := by
  refine quoted rfl fun s hs => ?_
  obtain ⟨b, t, hopen⟩ := step_textMark hs
  exact ⟨_, t, hopen, mark_textQuote e b, h b⟩

theorem quoteChars (e : Engine) (cs : List Char) : Clean e (e.quoteChars cs) := by
  cases e with
  | mysql => exact literal fun b => Within.flatMap (within_mysqlChar b) cs
  | postgres =>
    have hbody : Clean .postgres ('\'' :: cs.flatMap Engine.postgresChar ++ ['\'']) :=
      literal fun b => Within.flatMap (within_postgresChar b) cs
    have hmark : Clean .postgres ['E'] := of_quoteFree (by decide) (by decide)
    rw [Engine.quoteChars]
    split
    · exact hmark.append hbody
    · exact hbody

theorem quotedName (e : Engine) (name : String) :
    Clean e (Ident.quotedName e.identQuote name).toList := by
  rw [Ident.quotedName, String.toList_ofList]
  refine quoted (by cases e <;> rfl) fun s hs => ?_
  obtain ⟨t, hopen⟩ := step_nameMark hs
  exact ⟨_, t, hopen, rfl, within_doubled name.toList⟩

theorem intercalate {sep : List Char} (hsep : Clean e sep) {texts : List (List Char)}
    (h : ∀ t ∈ texts, Clean e t) : Clean e (sep.intercalate texts) := by
  by_cases hne : texts = []
  · subst hne
    exact nil
  · exact Text.intercalate_of_append (fun a b ha hb => (ha.append hsep).append hb) hne h

end Clean

end SqlBuilder.Lexer
