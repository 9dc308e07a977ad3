import SqlBuilder.Proofs.Payload.Text
import SqlBuilder.Proofs.Template

/-!
# Templates filled with other payloads

A value is written alike for any payload, wherever quotes may open. In a template without
quotes they may open at every placeholder that does not touch a word.
-/
namespace SqlBuilder.Payload

open Lexer
open List (Forall₂)

variable {R : List Char → List Char → Prop} {e : Engine}

/-- The same value but for payload texts. Raw text is like nothing. -/
inductive ValueAlike (R : List Char → List Char → Prop) : Value → Value → Prop where
  | null : ValueAlike R .null .null
  | bool (b : Bool) : ValueAlike R (.bool b) (.bool b)
  | int (n : Int) : ValueAlike R (.int n) (.int n)
  | float (x : Float) : ValueAlike R (.float x) (.float x)
  | text {s t : String} : R s.toList t.toList → ValueAlike R (.text s) (.text t)
  | list {vs ws : List Value} : Forall₂ (ValueAlike R) vs ws → ValueAlike R (.list vs) (.list ws)
  | ident (name : String) : ValueAlike R (.ident name) (.ident name)

/-- Scans of two texts from two states give tokens alike and end in states alike. -/
structure ScansAlike (R : List Char → List Char → Prop) (e : Engine) (s t : State)
    (a b : List Char) : Prop where
  out : Forall₂ (TokenAlike R) (scan e s a).1 (scan e t b).1
  state : StateAlike R e (scan e s a).2 (scan e t b).2

/-- Alike wherever a quote may open. -/
def AlikeFrom (R : List Char → List Char → Prop) (e : Engine) (a b : List Char) : Prop :=
  ∀ s, Free e s → ScansAlike R e s s a b

namespace ScansAlike

variable {s t : State} {a b a' b' : List Char}

theorem append (h : ScansAlike R e s t a b)
    (h' : ScansAlike R e (scan e s a).2 (scan e t b).2 a' b') :
    ScansAlike R e s t (a ++ a') (b ++ b') where
  out := by rw [scan_append, scan_append]; exact tokensAlike_append h.out h'.out
  state := by rw [scan_append, scan_append]; exact h'.state

theorem same (h : (scan e s a).2.Settled) : ScansAlike R e s s a a where
  out := tokensAlike_refl _
  state := .same h

theorem symbol (h : StateAlike R e s t) {c : Char} (hc : isSymbol c = true) :
    ScansAlike R e s t [c] [c] where
  out := by
    rw [scan_symbol_alone e h.settled.1 hc, scan_symbol_alone e h.settled.2 hc]
    exact tokensAlike_append h.pending (tokensAlike_refl _)
  state := by
    rw [scan_symbol_alone e h.settled.1 hc, scan_symbol_alone e h.settled.2 hc]
    exact .same trivial

theorem separator {sep : List Char} (h : StateAlike R e s t) (hsep : Separates e sep) :
    ScansAlike R e s t sep sep where
  out := by
    rw [scan_separates h.settled.1 hsep, scan_separates h.settled.2 hsep]
    exact tokensAlike_append h.pending (tokensAlike_refl _)
  state := by
    rw [scan_separates h.settled.1 hsep, scan_separates h.settled.2 hsep]
    exact .same trivial

end ScansAlike

namespace AlikeFrom

variable {a b : List Char}

theorem textAlike (h : AlikeFrom R e a b) : TextAlike R e a b :=
  .of_scan (h .between (.inl rfl)).out (h .between (.inl rfl)).state

theorem of_quoteFree (h : QuoteFree a) : AlikeFrom R e a a := fun _ hs =>
  .same (settled_scan hs.settled h)

theorem literal (h : R a b) : AlikeFrom R e (e.quoteChars a) (e.quoteChars b) := fun s hs => by
  constructor
  · rw [scan_quoteChars hs, scan_quoteChars hs]; exact tokensAlike_refl _
  · rw [scan_quoteChars hs, scan_quoteChars hs]; exact .payload h

theorem intercalate {sep : List Char} (hsep : Separates e sep) {as bs : List (List Char)}
    (h : Forall₂ (AlikeFrom R e) as bs) :
    AlikeFrom R e (sep.intercalate as) (sep.intercalate bs) := by
  intro s hs
  induction h generalizing s with
  | nil => exact .same hs.settled
  | @cons a b as bs hab hrest ih =>
    cases hrest with
    | nil => simpa using hab s hs
    | cons _ _ =>
      have h₁ := hab s hs
      have h₂ := h₁.append (ScansAlike.separator h₁.state hsep)
      rw [List.intercalate_cons_cons, List.intercalate_cons_cons]
      apply h₂.append
      rw [scan_append, scan_append, scan_separates h₁.state.settled.1 hsep,
        scan_separates h₁.state.settled.2 hsep]
      exact ih .between (.inl rfl)

end AlikeFrom

theorem separates_comma (e : Engine) : Separates e ", ".toList := by cases e <;> decide

theorem alikeFrom_quoteIdent {name text : String} (h : e.quoteIdent name = .ok text) :
    AlikeFrom R e text.toList text.toList := fun _ hs => .same (free_quoteIdent hs h).settled

theorem alikeFrom_commaJoined {as bs : List String}
    (h : Forall₂ (fun a b => AlikeFrom R e a.toList b.toList) as bs) :
    AlikeFrom R e (Engine.commaJoined as).toList (Engine.commaJoined bs).toList := by
  rw [Engine.commaJoined, Engine.commaJoined, String.toList_intercalate,
    String.toList_intercalate]
  apply AlikeFrom.intercalate (separates_comma e)
  rw [List.forall₂_map_left_iff, List.forall₂_map_right_iff]
  exact h

/-- Texts in two outcomes that are alike wherever they may be written. -/
abbrev WrittenAlike (R : List Char → List Char → Prop) (e : Engine) :
    Outcome String → Outcome String → Prop :=
  Outcome.Alike fun a b => AlikeFrom R e a.toList b.toList

theorem escapeScalar_alike {v w : Value} (h : ValueAlike R v w) :
    WrittenAlike R e (e.escapeScalar v) (e.escapeScalar w) := by
  cases h with
  | null => exact .ok (.of_quoteFree (by decide))
  | bool b => exact .ok (.of_quoteFree (by cases e <;> cases b <;> decide))
  | int n => exact .ok (.of_quoteFree (quoteFree_int n))
  | float x =>
    by_cases hx : Decimal.isFinite x = true
    · simp only [Engine.escapeScalar, hx, if_true]
      exact .ok (.of_quoteFree (quoteFree_float hx))
    · simp only [Engine.escapeScalar, hx]
      exact .error rfl
  | text hr =>
    refine .ok ?_
    rw [Engine.quoteText, Engine.quoteText, String.toList_ofList, String.toList_ofList]
    exact .literal hr
  | list _ => exact .error rfl
  | ident _ => exact .error rfl

theorem escape_alike {v w : Value} (h : ValueAlike R v w) :
    WrittenAlike R e (e.escape v) (e.escape w) := by
  have hscalar := escapeScalar_alike (e := e) h
  cases h with
  | list hs =>
    have hitems := Outcome.Alike.mapM hs fun v w hvw => escapeScalar_alike (e := e) hvw
    exact hitems.map fun as bs hab => alikeFrom_commaJoined hab
  | ident name => exact Outcome.Alike.refl _ fun text ht => alikeFrom_quoteIdent ht
  | _ => exact hscalar

theorem fillList_alike {v w : Value} (h : ValueAlike R v w) :
    WrittenAlike R e (e.fillList v) (e.fillList w) := by
  have hescape := escape_alike (e := e) h
  cases h with
  | list hs =>
    cases hs with
    | nil => exact .ok (.of_quoteFree (by decide))
    | cons _ _ => exact hescape
  | _ => exact hescape

theorem free_commaJoined {texts : List String}
    (h : ∀ p ∈ texts, ∀ s, Free e s → Free e (scan e s p.toList).2) {s : State}
    (hs : Free e s) : Free e (scan e s (Engine.commaJoined texts).toList).2 := by
  rw [Engine.commaJoined, String.toList_intercalate]
  refine free_intercalate (separates_comma e) (fun p hp => ?_) hs
  obtain ⟨text, ht, rfl⟩ := List.mem_map.mp hp
  exact h text ht

mutual

theorem free_fillIdent {v : Value} {text : String} (h : e.fillIdent v = .ok text) {s : State}
    (hs : Free e s) : Free e (scan e s text.toList).2 := by
  cases v with
  | text name => exact free_quoteIdent hs h
  | ident name => exact free_quoteIdent hs h
  | list names =>
    obtain ⟨texts, ht, rfl⟩ := Outcome.exists_of_map_eq_ok h
    exact free_commaJoined (free_fillIdents ht) hs
  | null => cases h
  | bool b => cases h
  | int n => cases h
  | float x => cases h
  | raw sql => cases h

theorem free_fillIdents {vs : List Value} {texts : List String}
    (h : e.fillIdents vs = .ok texts) :
    ∀ p ∈ texts, ∀ s, Free e s → Free e (scan e s p.toList).2 := by
  cases vs with
  | nil =>
    cases h
    intro p hp
    exact absurd hp List.not_mem_nil
  | cons v vs =>
    obtain ⟨name, hn, h⟩ := Outcome.exists_of_bind_eq_ok h
    obtain ⟨names, hns, h⟩ := Outcome.exists_of_bind_eq_ok h
    cases h
    intro p hp s hs
    rcases List.mem_cons.mp hp with rfl | hp
    · exact free_fillIdent hn hs
    · exact free_fillIdents hns p hp s hs

end

open Template

/-- Parameters for the same placeholders, in order. Those of `??` are the same, and those
that no placeholder takes do not matter. -/
inductive ParamsAlike (R : List Char → List Char → Prop) :
    List PlaceholderForm → List Value → List Value → Prop where
  | rest (ps qs : List Value) : ParamsAlike R [] ps qs
  | missing (forms : List PlaceholderForm) : ParamsAlike R forms [] []
  | ident (v : Value) {forms : List PlaceholderForm} {ps qs : List Value} :
      ParamsAlike R forms ps qs → ParamsAlike R (.ident :: forms) (v :: ps) (v :: qs)
  | value {form : PlaceholderForm} {v w : Value} {forms : List PlaceholderForm}
      {ps qs : List Value} : form ≠ .ident → ValueAlike R v w → ParamsAlike R forms ps qs →
      ParamsAlike R (form :: forms) (v :: ps) (w :: qs)

/-- No `?` and no `??` stands directly behind a word. -/
def Spaced : Segment → Segment → Prop
  | .plain c, .hole form => form = .list ∨ isWordChar c = false
  | _, _ => True

instance : DecidableRel Spaced
  | .plain _, .hole _ => inferInstanceAs (Decidable (_ ∨ _))
  | .plain _, .plain _ => .isTrue trivial
  | .hole _, _ => .isTrue trivial

/-- Before a `?` or a `??` both scans stand at one place, where a quote may open. -/
def Ready (e : Engine) (s t : State) (ss : List Segment) : Prop :=
  ∀ form, ss.head? = some (.hole form) → form ≠ .list → s = t ∧ Free e s

/-- What is written for one segment, with the other segments still to come. -/
structure Written (R : List Char → List Char → Prop) (e : Engine) (s t : State)
    (ss : List Segment) (a b : List Char) : Prop where
  scans : ScansAlike R e s t a b
  ready : Ready e (scan e s a).2 (scan e t b).2 ss

variable {s t : State} {ss : List Segment}

theorem scansAlike_char (h : StateAlike R e s t) {c : Char} (hc : isQuoteMark c = false) :
    ScansAlike R e s t [c] [c] := by
  by_cases hw : isWordChar c = true
  · cases h with
    | same hs => exact .same (settled_step hs hc)
    | @payload a b m m' hr =>
      have hstep (m : Bool) (a : List Char) :
          scan e (.closing (textQuote e m) a) [c] = ([.literal a], .word [c]) := by
        have hm : c ≠ '\'' := by rintro rfl; exact absurd hc (by decide)
        cases e <;> simp [scan_cons, step, hm, first, hw, Quote.token, textQuote]
      constructor
      · rw [hstep, hstep]; exact .cons (.payload hr) .nil
      · rw [hstep, hstep]; exact .same trivial
  · exact .symbol h (by simp [isSymbol, hw, hc])

theorem written_char (h : StateAlike R e s t) {c : Char} (hc : isQuoteMark c = false)
    (hspaced : ∀ q ∈ ss.head?, Spaced (.plain c) q) : Written R e s t ss [c] [c] where
  scans := scansAlike_char h hc
  ready := by
    intro form hform hne
    rcases hspaced _ hform with hlist | hw
    · exact absurd hlist hne
    · have hs : isSymbol c = true := by simp [isSymbol, hw, hc]
      rw [scan_symbol_alone e h.settled.1 hs, scan_symbol_alone e h.settled.2 hs]
      exact ⟨rfl, .inl rfl⟩

theorem written_parenthesised (h : StateAlike R e s t) {a b : String}
    (hab : AlikeFrom R e a.toList b.toList) :
    Written R e s t ss ("(" ++ a ++ ")").toList ("(" ++ b ++ ")").toList := by
  have hopen : isSymbol '(' = true := by decide
  have hclose : isSymbol ')' = true := by decide
  have h₁ : ScansAlike R e s t ['('] ['('] := .symbol h hopen
  have hs := congrArg Prod.snd (scan_symbol_alone e h.settled.1 hopen)
  have ht := congrArg Prod.snd (scan_symbol_alone e h.settled.2 hopen)
  have h₂ := h₁.append (by rw [hs, ht]; exact hab .between (.inl rfl))
  have h₃ := h₂.append (.symbol h₂.state hclose)
  have ha : ("(" ++ a ++ ")").toList = ['('] ++ a.toList ++ [')'] := by simp
  have hb : ("(" ++ b ++ ")").toList = ['('] ++ b.toList ++ [')'] := by simp
  rw [ha, hb]
  refine ⟨h₃, fun form _ _ => ?_⟩
  rw [scan_append e s, scan_append e t, scan_symbol_alone e h₂.state.settled.1 hclose,
    scan_symbol_alone e h₂.state.settled.2 hclose]
  exact ⟨rfl, .inl rfl⟩

theorem take_alike {form : PlaceholderForm}
    (hapart : ∀ q ∈ ss.head?, Segment.Apart (.hole form) q) {ps qs : List Value}
    (hp : ParamsAlike R (form :: holes ss) ps qs)
    (h : StateAlike R e s t) (hready : Ready e s t (.hole form :: ss)) (t₁ t₂ : Template) :
    Outcome.Alike (fun a b => Written R e s t ss a.1 b.1 ∧ ParamsAlike R (holes ss) a.2 b.2)
      (t₁.take e form ps) (t₂.take e form qs) := by
  cases hp with
  | missing => exact .error rfl
  | ident v hp =>
    obtain ⟨rfl, hs⟩ := hready .ident rfl (by decide)
    have hsame : Outcome.Alike (fun a b => a = b ∧ Free e (scan e s a.toList).2)
        (e.fillIdent v) (e.fillIdent v) :=
      .refl _ fun text ht => ⟨rfl, free_fillIdent ht hs⟩
    apply hsame.map
    rintro a b ⟨rfl, hfree⟩
    exact ⟨⟨.same hfree.settled, fun _ _ _ => ⟨rfl, hfree⟩⟩, hp⟩
  | value hform hv hp =>
    cases form with
    | ident => exact absurd rfl hform
    | list =>
      have hlist : Outcome.Alike (fun a b => Written R e s t ss a.toList b.toList)
          (e.fillOne .list _) (e.fillOne .list _) :=
        (fillList_alike hv).map fun a b hab => written_parenthesised h hab
      exact hlist.map fun a b hab => ⟨hab, hp⟩
    | literal =>
      obtain ⟨rfl, hs⟩ := hready .literal rfl (by decide)
      have hvalue := escape_alike (e := e) hv
      refine hvalue.map fun a b hab => ⟨⟨hab s hs, fun form hform hne => ?_⟩, hp⟩
      have hnext := hapart _ hform rfl
      cases form with
      | list => exact absurd rfl hne
      | ident => exact absurd rfl hnext.2
      | literal => exact absurd rfl hnext.1

/-- Filling goes on alike behind every segment, since each leaves the next one ready. -/
theorem fillSegments_alike (hspaced : ss.IsChain Spaced) (hapart : ss.IsChain Segment.Apart)
    (hplain : ∀ c, .plain c ∈ ss → isQuoteMark c = false) {ps qs : List Value}
    (hp : ParamsAlike R (holes ss) ps qs) (hst : StateAlike R e s t)
    (hready : Ready e s t ss) (t₁ t₂ : Template) :
    Outcome.Alike (ScansAlike R e s t) (t₁.fillSegments e ss ps) (t₂.fillSegments e ss qs) := by
  induction ss generalizing ps qs s t with
  | nil => exact .ok ⟨.nil, hst⟩
  | cons p ss ih =>
    rw [List.isChain_cons] at hspaced hapart
    have hplain' : ∀ c, .plain c ∈ ss → isQuoteMark c = false :=
      fun c hc => hplain c (List.mem_cons_of_mem _ hc)
    cases p with
    | plain c =>
      have hc := written_char hst (hplain c List.mem_cons_self) hspaced.1
      have hrest := ih hspaced.2 hapart.2 hplain' hp hc.scans.state hc.ready
      exact hrest.bind fun a b hab => .ok (hc.scans.append hab)
    | hole form =>
      have hhead := take_alike hapart.1 hp hst hready t₁ t₂
      apply hhead.bind
      intro a b hab
      have hrest := ih hspaced.2 hapart.2 hplain' hab.2 hab.1.scans.state hab.1.ready
      exact hrest.bind fun as bs hs => .ok (hab.1.scans.append hs)

/-- No quotes, and no `?` or `??` directly behind a word. -/
structure Plain (template : String) : Prop where
  quoteFree : QuoteFree template.toList
  spaced : (segments template.toList).IsChain Spaced

theorem prepare_alike {template : String} (h : Plain template) {ps qs : List Value}
    (hp : ParamsAlike R (holes (segments template.toList)) ps qs) :
    Outcome.Alike (fun a b => TextAlike R e a.toList b.toList) (e.prepare template ps)
      (e.prepare template qs) := by
  have hready : Ready e .between .between (segments template.toList) :=
    fun _ _ _ => ⟨rfl, .inl rfl⟩
  have hfill := fillSegments_alike (e := e) h.spaced (segments_apart _)
    (fun c hc => h.quoteFree c (mem_of_plain_mem_segments hc)) hp
    (s := .between) (t := .between) (.same trivial) hready ⟨template, ps⟩ ⟨template, qs⟩
  rw [Engine.prepare, Engine.prepare, fill_eq_fillSegments, fill_eq_fillSegments]
  apply hfill.map
  intro a b hab
  rw [String.toList_ofList, String.toList_ofList]
  exact .of_scan hab.out hab.state

end SqlBuilder.Payload
