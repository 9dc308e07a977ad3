import SqlBuilder.Proofs.Comment.Value
import SqlBuilder.Proofs.Template

/-!
# Comments in filled templates

A template without a comment gets one exactly where two dashes meet in the filled text: a dash
before the sign of a number, or two dashes of the template with nothing filled in between. The
filled text is scanned beside the template, which is taken up anew behind every placeholder.
-/
namespace SqlBuilder.Template

open Lexer

variable {e : Engine} {s o : State} {ss : List Segment} {cs out : List Char} {c : Char}
  {params : List Value}

/-- Every placeholder lies outside quotes, when the text before the segments leads to the state.
A placeholder is read as symbols. -/
def HolesOutside (e : Engine) : State → List Segment → Prop
  | _, [] => True
  | s, .plain c :: ss => HolesOutside e (step e s c).2 ss
  | s, .hole _ :: ss => s.Settled ∧ HolesOutside e .between ss

/-- Besides, the quotes are closed at the end. -/
def Balanced (e : Engine) : State → List Segment → Prop
  | s, [] => s.Settled
  | s, .plain c :: ss => Balanced e (step e s c).2 ss
  | s, .hole _ :: ss => s.Settled ∧ Balanced e .between ss

/-- A template without a comment, with its placeholders outside its quotes. -/
structure Plain (e : Engine) (template : String) : Prop where
  undashed : ¬ ['-', '-'] <:+: template.toList
  closed : Closed e template.toList
  holesOutside : HolesOutside e .between (segments template.toList)

instance decidableHolesOutside (e : Engine) :
    (s : State) → (ss : List Segment) → Decidable (HolesOutside e s ss)
  | _, [] => .isTrue trivial
  | s, .plain c :: ss => decidableHolesOutside e (step e s c).2 ss
  | s, .hole _ :: ss =>
    have := decidableHolesOutside e .between ss
    inferInstanceAs (Decidable (s.Settled ∧ _))

theorem scan_symbols (e : Engine) {s : State} (hs : s.Settled) {g : List Char} (hg : g ≠ [])
    (h : g.all isSymbol = true) (cs : List Char) :
    (scan e s (g ++ cs)).2 = (scan e .between cs).2 := by
  induction g generalizing s with
  | nil => exact absurd rfl hg
  | cons c g ih =>
    rw [List.all_cons, Bool.and_eq_true] at h
    rw [List.cons_append, scan_symbol e hs h.1]
    by_cases hne : g = []
    · rw [hne, List.nil_append]
    · exact ih trivial hne h.2

theorem balanced_of_settled (hholes : HolesOutside e s (segments cs))
    (hend : (scan e s cs).2.Settled) : Balanced e s (segments cs) := by
  induction cs using segments.induct generalizing s with
  | case1 cs ih =>
    rw [segments] at hholes ⊢
    have hscan := scan_symbols e hholes.1 (List.cons_ne_nil '(' ['?', ')']) rfl cs
    exact ⟨hholes.1, ih hholes.2 (hscan ▸ hend)⟩
  | case2 cs ih =>
    rw [segments] at hholes ⊢
    have hscan := scan_symbols e hholes.1 (List.cons_ne_nil '?' ['?']) rfl cs
    exact ⟨hholes.1, ih hholes.2 (hscan ▸ hend)⟩
  | case3 cs hnext ih =>
    simp only [segments] at hholes ⊢
    have hscan := scan_symbols e hholes.1 (List.cons_ne_nil '?' []) rfl cs
    exact ⟨hholes.1, ih hholes.2 (hscan ▸ hend)⟩
  | case4 c cs h₁ h₂ h₃ ih =>
    simp only [segments] at hholes ⊢
    exact ih hholes hend
  | case5 => exact hend

def Undashed (ss : List Segment) : Prop :=
  ss.IsChain fun p q => p = .plain '-' → q ≠ .plain '-'

theorem head?_of_plain {cs : List Char} {c : Char} (h : (segments cs).head? = some (.plain c)) :
    cs.head? = some c := by
  cases cs using segments.fun_cases with
  | case4 d cs h₁ h₂ h₃ =>
    simp only [segments, List.head?_cons, Option.some.injEq, Segment.plain.injEq] at h
    exact congrArg some h
  | _ => simp [segments] at h

theorem undashed_segments (h : ¬ ['-', '-'] <:+: cs) : Undashed (segments cs) := by
  induction cs using segments.induct with
  | case1 cs ih =>
    simp only [segments]
    refine List.isChain_cons.mpr ⟨fun _ _ h => Segment.noConfusion h, ih fun hinfix => h ?_⟩
    exact hinfix.trans (List.suffix_append ['(', '?', ')'] cs).isInfix
  | case2 cs ih =>
    simp only [segments]
    refine List.isChain_cons.mpr ⟨fun _ _ h => Segment.noConfusion h, ih fun hinfix => h ?_⟩
    exact hinfix.trans (List.suffix_append ['?', '?'] cs).isInfix
  | case3 cs hnext ih =>
    simp only [segments]
    refine List.isChain_cons.mpr ⟨fun _ _ h => Segment.noConfusion h, ih fun hinfix => h ?_⟩
    exact hinfix.trans (List.suffix_cons '?' cs).isInfix
  | case4 c cs h₁ h₂ h₃ ih =>
    simp only [segments]
    refine List.isChain_cons.mpr ⟨?_, ih fun hinfix => h ?_⟩
    · rintro q hq hc rfl
      cases hc
      obtain ⟨ds, rfl⟩ := List.head?_eq_some_iff.mp (head?_of_plain hq)
      exact h (List.prefix_append ['-', '-'] ds).isInfix
    · exact hinfix.trans (List.suffix_cons c cs).isInfix
  | case5 => exact .nil

/-- How far a literal directly behind a placeholder is read: not begun, at a place where its mark
goes on or begins, between its marks. -/
inductive Phase where
  | behind
  | edge
  | inside
  deriving DecidableEq

/-- The literal that begins directly, if any does, ends before any backslash. -/
def Quiet : Phase → List Segment → Prop
  | .behind, .plain c :: ss =>
    (c = '\'' → Quiet .inside ss) ∧ (c = 'E' ∨ c = 'e' → Quiet .edge ss)
  | .edge, .plain c :: ss => c = '\'' → Quiet .inside ss
  | .inside, .plain c :: ss =>
    (c = '\'' → Quiet .edge ss) ∧ (c ≠ '\'' → c ≠ '\\' ∧ Quiet .inside ss)
  | _, _ => True

/-- No literal directly behind a placeholder holds a backslash. -/
def QuietLiterals : List Segment → Prop
  | [] => True
  | .plain _ :: ss => QuietLiterals ss
  | .hole _ :: ss => Quiet .behind ss ∧ QuietLiterals ss

instance decidableQuiet : (p : Phase) → (ss : List Segment) → Decidable (Quiet p ss)
  | .behind, .plain c :: ss =>
    have := decidableQuiet .inside ss
    have := decidableQuiet .edge ss
    inferInstanceAs (Decidable ((c = '\'' → _) ∧ (c = 'E' ∨ c = 'e' → _)))
  | .edge, .plain c :: ss =>
    have := decidableQuiet .inside ss
    inferInstanceAs (Decidable (c = '\'' → _))
  | .inside, .plain c :: ss =>
    have := decidableQuiet .inside ss
    have := decidableQuiet .edge ss
    inferInstanceAs (Decidable ((c = '\'' → _) ∧ (c ≠ '\'' → c ≠ '\\' ∧ _)))
  | .behind, .hole _ :: _ | .edge, .hole _ :: _ | .inside, .hole _ :: _ => .isTrue trivial
  | .behind, [] | .edge, [] | .inside, [] => .isTrue trivial

instance decidableQuietLiterals : (ss : List Segment) → Decidable (QuietLiterals ss)
  | [] => .isTrue trivial
  | .plain _ :: ss => decidableQuietLiterals ss
  | .hole _ :: ss =>
    have := decidableQuietLiterals ss
    inferInstanceAs (Decidable (Quiet .behind ss ∧ _))

/-- States that differ at most in what was read. A word counts where it can mark a literal. -/
inductive Parallel (e : Engine) : State → State → Prop where
  | between : Parallel e .between .between
  | word {t u : List Char} : (e = .postgres → t = u) → Parallel e (.word t) (.word u)
  | inside (q : Quote) (t u : List Char) : Parallel e (.inside q t) (.inside q u)
  | escaped (q : Quote) (t u : List Char) : Parallel e (.escaped q t) (.escaped q u)
  | closing (q : Quote) (t u : List Char) : Parallel e (.closing q t) (.closing q u)

theorem Parallel.refl (e : Engine) (s : State) : Parallel e s s := by
  cases s with
  | between => exact .between
  | word t => exact .word fun _ => rfl
  | inside q t => exact .inside q t t
  | escaped q t => exact .escaped q t t
  | closing q t => exact .closing q t t

theorem Parallel.step (h : Parallel e s o) (c : Char) :
    Parallel e (step e s c).2 (step e o c).2 := by
  cases h with
  | between => exact .refl e _
  | @word t u heq =>
    cases e with
    | postgres =>
      rw [heq rfl]
      exact .refl _ _
    | mysql =>
      have hmarks (w : List Char) : ¬ marksEscapes .mysql w c = true := by simp [marksEscapes]
      rw [Lexer.step, Lexer.step, if_neg (hmarks t), if_neg (hmarks u)]
      by_cases hword : isWordChar c = true
      · rw [if_pos hword, if_pos hword]
        exact .word fun h => by cases h
      · rw [if_neg hword, if_neg hword]
        exact .refl _ _
  | inside q t u =>
    rw [Lexer.step, Lexer.step]
    split_ifs
    · exact .closing q t u
    · exact .escaped q t u
    · exact .inside q _ _
  | escaped q t u => exact .inside q _ _
  | closing q t u =>
    rw [Lexer.step, Lexer.step]
    split_ifs
    · exact .inside q _ _
    · exact .refl e _

/-- Where the scan of the template stands before the segments, and that of the filled text. Behind
a placeholder the latter still knows what was filled in, which can only matter to a literal that
directly follows. -/
inductive Follows (e : Engine) (ss : List Segment) : State → State → Prop where
  | parallel {s o : State} : Parallel e s o → Follows e ss s o
  | behind {o : State} : Outside e o → (e = .postgres → Quiet .behind ss) →
      Follows e ss .between o
  | words {t u : List Char} : t ≠ [] → 2 ≤ u.length →
      (e = .postgres → t = ['E'] ∨ t = ['e'] → Quiet .edge ss) → Follows e ss (.word t) (.word u)
  | inside (b b' : Bool) (t u : List Char) : (e = .postgres → Quiet .inside ss) →
      Follows e ss (.inside (textQuote e b) t) (.inside (textQuote e b') u)
  | closing (b b' : Bool) (t u : List Char) : (e = .postgres → Quiet .edge ss) →
      Follows e ss (.closing (textQuote e b) t) (.closing (textQuote e b') u)

namespace Follows

theorem settled (h : Follows e ss s o) (hs : s.Settled) : o.Settled := by
  cases h with
  | parallel h => cases h <;> exact hs
  | behind ho => exact ho.settled
  | words => trivial
  | inside => exact hs.elim
  | closing => trivial

theorem step_behind (ho : Outside e o)
    (hquiet : e = .postgres → Quiet .behind (.plain c :: ss)) :
    Follows e ss (step e .between c).2 (step e o c).2 := by
  have hsame : Follows e ss (first e c).2 (first e c).2 := .parallel (.refl e _)
  obtain ⟨hsound, hsettled⟩ := ho
  cases o with
  | between => exact hsame
  | word u =>
    rw [step, step]
    by_cases hword : isWordChar c = true
    · -- What was filled in goes on as a word, which then is no mark of a literal.
      have hfirst : first e c = ([], .word [c]) := by rw [first, if_pos hword]
      have hlength : 0 < u.length := List.length_pos_iff.mpr hsound
      rw [if_pos hword, hfirst]
      refine .words (List.cons_ne_nil c []) (by simp; omega) fun he hmark => ?_
      refine (hquiet he).2 (hmark.imp ?_ ?_) <;> intro h <;> exact List.head_eq_of_cons_eq h
    by_cases hmarks : marksEscapes e u c = true
    · obtain ⟨-, -, rfl⟩ := eq_of_marksEscapes hmarks
      rw [if_neg hword, if_pos hmarks, first_textMark]
      exact .inside false true [] [] fun he => (hquiet he).1 rfl
    · rw [if_neg hword, if_neg hmarks]
      exact hsame
  | closing q u =>
    rw [step, step]
    by_cases hc : c = q.mark
    · rw [if_pos hc]
      have hword : ¬ isWordChar c = true := hc ▸ not_isWordChar q.mark_isQuoteMark
      rcases hsound with rfl | hopened
      · rw [mark_textQuote] at hc
        subst hc
        rw [first_textMark]
        exact .inside false true [] _ fun he => (hquiet he).1 rfl
      · have hfirst : (first e c).2 = .inside q [] := by
          rw [first, if_neg hword, hc, hopened]
        rw [hfirst]
        exact .parallel (.inside q [] _)
    · rw [if_neg hc]
      exact hsame
  | inside q u => exact hsettled.elim
  | escaped q u => exact hsettled.elim

theorem step_words {t u : List Char} (ht : t ≠ []) (hu : 2 ≤ u.length)
    (hquiet : e = .postgres → t = ['E'] ∨ t = ['e'] → Quiet .edge (.plain c :: ss)) :
    Follows e ss (step e (.word t) c).2 (step e (.word u) c).2 := by
  have hlength : 0 < t.length := List.length_pos_iff.mpr ht
  have hsame : Follows e ss (first e c).2 (first e c).2 := .parallel (.refl e _)
  rw [step, step]
  by_cases hword : isWordChar c = true
  · rw [if_pos hword, if_pos hword]
    refine .words (by simp) (by simp; omega) fun _ hmark => ?_
    have hone : (t ++ [c]).length = 1 := by
      rcases hmark with hmark | hmark <;> rw [hmark] <;> rfl
    rw [List.length_append, List.length_singleton] at hone
    omega
  have hnone : ¬ marksEscapes e u c = true := by
    intro hmarks
    obtain ⟨-, rfl | rfl, -⟩ := eq_of_marksEscapes hmarks
    · exact absurd hu (by decide)
    · exact absurd hu (by decide)
  rw [if_neg hword, if_neg hword, if_neg hnone]
  by_cases hmarks : marksEscapes e t c = true
  · rw [if_pos hmarks]
    obtain ⟨he, hmark, rfl⟩ := eq_of_marksEscapes hmarks
    rw [first_textMark]
    exact .inside true false [] [] fun _ => hquiet he hmark rfl
  · rw [if_neg hmarks]
    exact hsame

/-- Without a backslash both kinds of literals are read alike. -/
theorem step_inside (b b' : Bool) (t u : List Char)
    (hquiet : e = .postgres → Quiet .inside (.plain c :: ss)) :
    Follows e ss (step e (.inside (textQuote e b) t) c).2
      (step e (.inside (textQuote e b') u) c).2 := by
  cases e with
  | mysql => exact .parallel ((Parallel.inside (textQuote .mysql b) t u).step c)
  | postgres =>
    by_cases hc : c = '\''
    · subst hc
      exact .closing b b' t u fun he => (hquiet he).1 rfl
    · obtain ⟨hslash, hrest⟩ := (hquiet rfl).2 hc
      have hstep (b : Bool) (t : List Char) :
          (step .postgres (.inside (textQuote .postgres b) t) c).2 =
            .inside (textQuote .postgres b) (t ++ [c]) := by
        simp [step, textQuote, hc, hslash]
      rw [hstep, hstep]
      exact .inside b b' _ _ fun _ => hrest

theorem step_closing (b b' : Bool) (t u : List Char)
    (hquiet : e = .postgres → Quiet .edge (.plain c :: ss)) :
    Follows e ss (step e (.closing (textQuote e b) t) c).2
      (step e (.closing (textQuote e b') u) c).2 := by
  rw [step, step, mark_textQuote, mark_textQuote]
  by_cases hc : c = '\''
  · rw [if_pos hc, if_pos hc]
    exact .inside b b' _ _ fun he => hquiet he hc
  · rw [if_neg hc, if_neg hc]
    exact .parallel (.refl e _)

theorem step (h : Follows e (.plain c :: ss) s o) :
    Follows e ss (step e s c).2 (step e o c).2 := by
  cases h with
  | parallel h => exact .parallel (h.step c)
  | behind ho hquiet => exact step_behind ho hquiet
  | words ht hu hquiet => exact step_words ht hu hquiet
  | inside b b' t u hquiet => exact step_inside b b' t u hquiet
  | closing b b' t u hquiet => exact step_closing b b' t u hquiet

end Follows

/-- What is filled in next, or stands there, starts with a dash. -/
def dashNext : List Segment → List Value → Bool
  | .plain c :: _, _ => c = '-'
  | .hole form :: ss, v :: params => form.signs v || (form.skips v && dashNext ss params)
  | _, _ => false

/-- Somewhere a dash of the template is followed by another one when it is filled. -/
def dashesMeet : List Segment → List Value → Bool
  | .plain c :: ss, params => (c = '-' && dashNext ss params) || dashesMeet ss params
  | .hole _ :: ss, _ :: params => dashesMeet ss params
  | _, _ => false

theorem exists_of_fill_hole {t : Template} {form : PlaceholderForm}
    (h : t.fillSegments e (.hole form :: ss) params = .ok out) :
    ∃ v rest text more, params = v :: rest ∧ e.fillOne form v = .ok text ∧
      t.fillSegments e ss rest = .ok more ∧ out = text.toList ++ more := by
  obtain ⟨⟨text, rest⟩, htake, h⟩ := Outcome.exists_of_bind_eq_ok h
  obtain ⟨more, hmore, h⟩ := Outcome.exists_of_bind_eq_ok h
  cases h
  cases params with
  | nil => cases htake
  | cons v others =>
    obtain ⟨filled, hfilled, hpair⟩ := Outcome.exists_of_map_eq_ok htake
    cases hpair
    exact ⟨v, rest, filled, more, rfl, hfilled, hmore, rfl⟩

theorem exists_of_fill_plain {t : Template}
    (h : t.fillSegments e (.plain c :: ss) params = .ok out) :
    ∃ more, t.fillSegments e ss params = .ok more ∧ out = c :: more := by
  obtain ⟨more, hmore, h⟩ := Outcome.exists_of_bind_eq_ok h
  cases h
  exact ⟨more, hmore, rfl⟩

def NoRaw (params : List Value) : Prop := ∀ v ∈ params, ∀ sql, v ≠ .raw sql

theorem head?_fillSegments {t : Template} (hraw : NoRaw params)
    (h : t.fillSegments e ss params = .ok out) :
    out.head? = some '-' ↔ dashNext ss params = true := by
  induction ss generalizing params out with
  | nil =>
    cases h
    simp [dashNext]
  | cons p ss ih =>
    cases p with
    | plain c =>
      obtain ⟨more, -, rfl⟩ := exists_of_fill_plain h
      simp [dashNext]
    | hole form =>
      obtain ⟨v, rest, text, more, rfl, htext, hmore, rfl⟩ := exists_of_fill_hole h
      obtain ⟨hv, hrest⟩ := List.forall_mem_cons.mp hraw
      have hspliced := spliced_fillOne hv htext
      have hnext := ih hrest hmore
      rw [dashNext, Bool.or_eq_true, Bool.and_eq_true, ← hspliced.head, ← hspliced.empty, ← hnext]
      cases text.toList with
      | nil => simp
      | cons d ds => simp

theorem settled_of_step (h : (step e s c).2.Settled) (hc : isQuoteMark c = false) :
    s.Settled := by
  cases s with
  | inside q t =>
    have hmark : c ≠ q.mark := by
      rintro rfl
      rw [q.mark_isQuoteMark] at hc
      cases hc
    rw [step, if_neg hmark] at h
    split at h
    · exact h.elim
    · exact h.elim
  | escaped q t => exact h.elim
  | _ => trivial

/-- A dash that meets another one is followed by a placeholder, and so stands outside quotes. -/
theorem settled_of_dashNext (hbalanced : Balanced e (step e s '-').2 ss)
    (hundashed : Undashed (.plain '-' :: ss)) (h : dashNext ss params = true) : s.Settled := by
  cases ss with
  | nil => cases h
  | cons p ss =>
    cases p with
    | plain c =>
      rw [dashNext, decide_eq_true_eq] at h
      have hne := (List.isChain_cons.mp hundashed).1 _ rfl rfl
      exact absurd (congrArg Segment.plain h) hne
    | hole form => exact settled_of_step hbalanced.1 rfl

/-- While the scan of the filled text follows that of the template, its dashes meet as the segments
say. -/
theorem dashes_fillSegments {t : Template} (hbalanced : Balanced e s ss)
    (hundashed : Undashed ss) (hquiet : e = .postgres → QuietLiterals ss) (hraw : NoRaw params)
    (hsound : o.Sound e) (hfollows : Follows e ss s o)
    (h : t.fillSegments e ss params = .ok out) :
    Dashes e o out ↔ dashesMeet ss params = true := by
  induction ss generalizing s o params out with
  | nil =>
    cases h
    simp [dashesMeet, not_dashes_nil]
  | cons p ss ih =>
    have hundashed' : Undashed ss := (List.isChain_cons.mp hundashed).2
    cases p with
    | plain c =>
      obtain ⟨more, hmore, rfl⟩ := exists_of_fill_plain h
      have hrest := ih hbalanced hundashed' hquiet hraw (sound_step hsound c) hfollows.step hmore
      have hhead := head?_fillSegments hraw hmore
      rw [dashes_cons, hrest, hhead, dashesMeet, Bool.or_eq_true, Bool.and_eq_true,
        decide_eq_true_eq]
      constructor
      · rintro (⟨-, hdash⟩ | hrest)
        · exact .inl hdash
        · exact .inr hrest
      · rintro (⟨rfl, hnext⟩ | hrest)
        -- The dash stands outside quotes in the template, and so it does in the filled text.
        · have hs := settled_of_dashNext hbalanced hundashed hnext
          exact .inl ⟨hfollows.settled hs, rfl, hnext⟩
        · exact .inr hrest
    | hole form =>
      obtain ⟨v, rest, text, more, rfl, htext, hmore, rfl⟩ := exists_of_fill_hole h
      obtain ⟨hv, hrest⟩ := List.forall_mem_cons.mp hraw
      have hclean := (spliced_fillOne hv htext).clean
      have ho : Outside e o := ⟨hsound, hfollows.settled hbalanced.1⟩
      have ho' := hclean.outside ho
      -- Behind a placeholder the template is scanned from between two tokens again.
      rw [dashes_append (hclean.dashes o ho) hclean.last, dashesMeet]
      exact ih hbalanced.2 hundashed' (fun he => (hquiet he).2) hrest ho'.sound
        (.behind ho' fun he => (hquiet he).1) hmore

/-- A filled template has a comment exactly where its dashes meet others. In PostgreSQL a literal
directly behind a placeholder is left out of account if it holds a backslash: it may go on from
what is filled in and be read in another way. -/
theorem comment_iff_dashesMeet (e : Engine) {template : String} (hplain : Plain e template)
    (hquiet : e = .postgres → QuietLiterals (segments template.toList)) {params : List Value}
    (hraw : NoRaw params) {out : String} (hout : e.prepare template params = .ok out) :
    HasComment e out.toList ↔ dashesMeet (segments template.toList) params = true := by
  obtain ⟨text, htext, rfl⟩ := Outcome.exists_of_map_eq_ok hout
  rw [fill_eq_fillSegments] at htext
  have hbalanced := balanced_of_settled hplain.holesOutside hplain.closed
  rw [String.toList_ofList]
  exact dashes_fillSegments hbalanced (undashed_segments hplain.undashed) hquiet hraw trivial
    (.parallel .between) htext

/-- Parentheses keep the sign of a number apart from a dash of the template; dashes between quotes
do not count. -/
theorem parentheses_keep_dashes_apart :
    HasComment .postgres "a --1 AND b = 'x--y'".toList ∧
    ¬ HasComment .postgres "a -(-1) AND b = 'x--y'".toList := by
  have hraw : NoRaw [.int (-1), .text "x--y"] := by simp [NoRaw]
  have hbare : Engine.postgres.prepare "a -? AND b = ?" [.int (-1), .text "x--y"] =
      .ok "a --1 AND b = 'x--y'" := Outcome.eq_ok_of_toOption (by decide +kernel)
  have hlist : Engine.postgres.prepare "a -(?) AND b = ?" [.int (-1), .text "x--y"] =
      .ok "a -(-1) AND b = 'x--y'" := Outcome.eq_ok_of_toOption (by decide +kernel)
  constructor
  · rw [comment_iff_dashesMeet .postgres ⟨by decide +kernel, by decide +kernel, by decide +kernel⟩
      (fun _ => by decide +kernel) hraw hbare]
    decide +kernel
  · rw [comment_iff_dashesMeet .postgres ⟨by decide +kernel, by decide +kernel, by decide +kernel⟩
      (fun _ => by decide +kernel) hraw hlist]
    decide +kernel

/-- A number behind a dash, and a literal of the template that goes on from what is filled in: its
backslash then takes its last quote along. -/
theorem filled_templates_with_comments :
    (Plain .postgres "1 -?" ∧ NoRaw [.int (-1)] ∧
      Engine.postgres.prepare "1 -?" [.int (-1)] = .ok "1 --1" ∧
      HasComment .postgres "1 --1".toList) ∧
    (Plain .postgres "?'a\\' ?" ∧ NoRaw [.text "x\\", .text "y--z"] ∧
      Engine.postgres.prepare "?'a\\' ?" [.text "x\\", .text "y--z"] =
        .ok "E'x\\\\''a\\' 'y--z'" ∧
      HasComment .postgres "E'x\\\\''a\\' 'y--z'".toList) := by
  refine ⟨⟨?_, by simp [NoRaw], ?_, ?_⟩, ?_, by simp [NoRaw], ?_, ?_⟩
  · exact ⟨by decide +kernel, by decide +kernel, by decide +kernel⟩
  · exact Outcome.eq_ok_of_toOption (by decide +kernel)
  · exact ⟨"1 ".toList, "1".toList, rfl, by decide +kernel⟩
  · exact ⟨by decide +kernel, by decide +kernel, by decide +kernel⟩
  · exact Outcome.eq_ok_of_toOption (by decide +kernel)
  · exact ⟨"E'x\\\\''a\\' 'y".toList, "z'".toList, rfl, by decide +kernel⟩

end SqlBuilder.Template
