import SqlBuilder.Proofs.Text

/-!
# Pieces of a text

The pieces of a text, with the separator between them again, are the text, and a cut is made at
every separator before which the text is outside quotes with as many parentheses opened as
closed. Behind a text that ends there a separator cuts whatever follows, so the pieces of both
sides stand one after the other.
-/
namespace SqlBuilder.Text

variable {sep : Char} {s : Scan} {a b before behind cs : List Char} {d : Int}

/-- Characters between which a text is quoted. -/
def IsMark (c : Char) : Prop := c = '\'' ∨ c = '"' ∨ c = '\x60'

/-- The text ends outside quotes, and outside quotes it opens so many more parentheses than it
closes. What is quoted reaches from a mark to the next same mark, whatever stands between. -/
inductive Outside : Int → List Char → Prop where
  | nil : Outside 0 []
  | plain {d : Int} {cs : List Char} {c : Char} : Outside d cs → ¬IsMark c → c ≠ '(' → c ≠ ')' →
      Outside d (cs ++ [c])
  | opened {d : Int} {cs : List Char} : Outside d cs → Outside (d + 1) (cs ++ ['('])
  | closed {d : Int} {cs : List Char} : Outside d cs → Outside (d - 1) (cs ++ [')'])
  | quoted {d : Int} {cs inner : List Char} {mark : Char} : Outside d cs → IsMark mark →
      mark ∉ inner → Outside d (cs ++ mark :: (inner ++ [mark]))

theorem isQuote_iff {c : Char} : Scan.isQuote c = true ↔ IsMark c := by
  simp [Scan.isQuote, IsMark, or_assoc]

namespace Scan

theorem after_concat (s : Scan) (cs : List Char) (c : Char) :
    s.after (cs ++ [c]) = (s.after cs).next c := after_append s cs [c]

theorem next_mark {c : Char} (h : IsMark c) (d : Int) : next ⟨none, d⟩ c = ⟨some c, d⟩ := by
  rw [next, if_pos (isQuote_iff.mpr h)]

theorem next_plain {c : Char} (h : ¬IsMark c) (hopen : c ≠ '(') (hclose : c ≠ ')') (d : Int) :
    next ⟨none, d⟩ c = ⟨none, d⟩ := by
  rw [next, if_neg (isQuote_iff.not.mpr h), if_neg hopen, if_neg hclose]

theorem next_inside (mark : Char) (d : Int) (c : Char) :
    next ⟨some mark, d⟩ c = if c = mark then ⟨none, d⟩ else ⟨some mark, d⟩ := rfl

theorem after_inner {mark : Char} {inner : List Char} (h : mark ∉ inner) (d : Int) :
    after ⟨some mark, d⟩ inner = ⟨some mark, d⟩ := by
  induction inner with
  | nil => rfl
  | cons c inner ih =>
    rw [List.mem_cons, not_or] at h
    show after (next ⟨some mark, d⟩ c) inner = _
    rw [next_inside, if_neg (Ne.symm h.1), ih h.2]

theorem after_cases (cs : List Char) :
    (∃ d, Scan.start.after cs = ⟨none, d⟩ ∧ Outside d cs) ∨
    ∃ d mark before inner, Scan.start.after cs = ⟨some mark, d⟩ ∧ cs = before ++ mark :: inner ∧
      Outside d before ∧ IsMark mark ∧ mark ∉ inner := by
  -- A scan that is under way starts nowhere else, so the text grows at its end.
  induction cs using List.reverseRecOn with
  | nil => exact .inl ⟨0, rfl, .nil⟩
  | append_singleton cs c ih =>
    rcases ih with ⟨d, hscan, hout⟩ | ⟨d, mark, before, inner, hscan, rfl, hout, hmark, hinner⟩
    · rw [after_concat, hscan]
      by_cases hmark : IsMark c
      · exact .inr ⟨d, c, cs, [], next_mark hmark d, rfl, hout, hmark, List.not_mem_nil⟩
      by_cases hopen : c = '('
      · subst hopen
        exact .inl ⟨d + 1, rfl, hout.opened⟩
      by_cases hclose : c = ')'
      · subst hclose
        exact .inl ⟨d - 1, rfl, hout.closed⟩
      · exact .inl ⟨d, next_plain hmark hopen hclose d, hout.plain hmark hopen hclose⟩
    · rw [after_concat, hscan, next_inside]
      by_cases hc : c = mark
      · subst hc
        refine .inl ⟨d, if_pos rfl, ?_⟩
        rw [List.append_assoc, List.cons_append]
        exact hout.quoted hmark hinner
      · refine .inr ⟨d, mark, before, inner ++ [c], if_neg hc, ?_, hout, hmark, ?_⟩
        · rw [List.append_assoc, List.cons_append]
        · rw [List.mem_append, List.mem_singleton, not_or]
          exact ⟨hinner, Ne.symm hc⟩

/-- The scan tells what is quoted and how deep the parentheses are. -/
theorem after_eq_iff : Scan.start.after cs = ⟨none, d⟩ ↔ Outside d cs := by
  constructor
  · intro h
    rcases after_cases cs with ⟨d', hscan, hout⟩ | ⟨d', mark, _, _, hscan, -⟩
    · rw [h] at hscan
      cases hscan
      exact hout
    · rw [h] at hscan
      cases hscan
  · intro h
    induction h with
    | nil => rfl
    | plain _ hmark hopen hclose ih => rw [after_concat, ih, next_plain hmark hopen hclose]
    | opened _ ih =>
      rw [after_concat, ih]
      rfl
    | closed _ ih =>
      rw [after_concat, ih]
      rfl
    | @quoted d cs inner mark _ hmark hinner ih =>
      rw [after_append, ih]
      show after (next ⟨none, d⟩ mark) (inner ++ [mark]) = _
      rw [next_mark hmark, after_concat, after_inner hinner, next_inside, if_pos rfl]

end Scan

def parens (cs : List Char) : Nat := cs.countP fun c => c = '(' || c = ')'

theorem natAbs_depth_next_le (s : Scan) (c : Char) :
    (s.next c).depth.natAbs ≤ s.depth.natAbs + parens [c] := by
  obtain ⟨_ | mark, d⟩ := s
  · by_cases hmark : IsMark c
    · rw [Scan.next_mark hmark]
      exact Nat.le_add_right _ _
    by_cases hopen : c = '('
    · subst hopen
      exact Int.natAbs_add_le d 1
    by_cases hclose : c = ')'
    · subst hclose
      exact Int.natAbs_sub_le d 1
    · rw [Scan.next_plain hmark hopen hclose]
      exact Nat.le_add_right _ _
  · rw [Scan.next_inside]
    split <;> exact Nat.le_add_right _ _

theorem natAbs_depth_after_le (s : Scan) (cs : List Char) :
    (s.after cs).depth.natAbs ≤ s.depth.natAbs + parens cs := by
  induction cs using List.reverseRecOn with
  | nil => exact Nat.le_add_right _ _
  | append_singleton cs c ih =>
    have hnext := natAbs_depth_next_le (s.after cs) c
    have hparens : parens (cs ++ [c]) = parens cs + parens [c] := List.countP_append
    rw [Scan.after_concat]
    omega

theorem splitFrom_ne_nil (sep : Char) (s : Scan) (cs : List Char) : splitFrom sep s cs ≠ [] :=
  List.ne_nil_of_length_pos (length_splitFrom_pos sep s cs)

theorem intercalate_consPiece (c : Char) {ps : List (List Char)} (h : ps ≠ []) :
    [sep].intercalate (consPiece c ps) = c :: [sep].intercalate ps := by
  obtain ⟨p, ps, rfl⟩ := List.exists_cons_of_ne_nil h
  cases ps with
  | nil => rfl
  | cons q qs => rw [consPiece, List.intercalate_cons_cons, List.intercalate_cons_cons]; rfl

theorem intercalate_append_pieces {ps qs : List (List Char)} (hp : ps ≠ []) (hq : qs ≠ []) :
    [sep].intercalate (ps ++ qs) = [sep].intercalate ps ++ sep :: [sep].intercalate qs := by
  induction ps with
  | nil => exact absurd rfl hp
  | cons p ps ih =>
    cases ps with
    | nil =>
      obtain ⟨q, qs, rfl⟩ := List.exists_cons_of_ne_nil hq
      rw [List.singleton_append, List.intercalate_cons_cons, List.intercalate_singleton,
        List.append_assoc]
      rfl
    | cons p' ps =>
      rw [List.cons_append, List.cons_append, List.intercalate_cons_cons,
        List.intercalate_cons_cons, ← List.cons_append, ih (List.cons_ne_nil p' ps)]
      simp

theorem intercalate_splitFrom (sep : Char) (s : Scan) (cs : List Char) :
    [sep].intercalate (splitFrom sep s cs) = cs := by
  induction cs generalizing s with
  | nil => rfl
  | cons c cs ih =>
    rw [splitFrom]
    split
    · rename_i hcut
      rw [Bool.and_eq_true, decide_eq_true_eq] at hcut
      have hjoin : [sep].intercalate ([[]] ++ splitFrom sep s cs) =
          [sep].intercalate [[]] ++ sep :: [sep].intercalate (splitFrom sep s cs) :=
        intercalate_append_pieces (List.cons_ne_nil [] []) (splitFrom_ne_nil sep s cs)
      rw [List.singleton_append, List.intercalate_singleton, List.nil_append, ih] at hjoin
      rw [hjoin, hcut.2]
    · rw [intercalate_consPiece c (splitFrom_ne_nil sep (s.next c) cs), ih]

/-- Between two neighbours among the pieces the text is cut, into what the pieces up to there
spell and what the others spell. -/
def CutBetween (sep : Char) (pieces : List (List Char)) (before behind : List Char) : Prop :=
  ∃ ps qs, ps ≠ [] ∧ qs ≠ [] ∧ pieces = ps ++ qs ∧ [sep].intercalate ps = before ∧
    [sep].intercalate qs = behind

theorem CutBetween.spelled (h : CutBetween sep (splitTop sep cs) before behind) :
    cs = before ++ sep :: behind := by
  obtain ⟨ps, qs, hp, hq, hpieces, rfl, rfl⟩ := h
  rw [← intercalate_append_pieces hp hq, ← hpieces]
  exact (intercalate_splitFrom sep .start cs).symm

/-- Wherever a text is cut, the scan of what stands before ends at the top level. -/
theorem after_of_splitFrom (hsep : Scan.start.next sep = .start) {ps qs : List (List Char)}
    (hp : ps ≠ []) (hq : qs ≠ []) (h : splitFrom sep s cs = ps ++ qs) :
    s.after ([sep].intercalate ps) = .start := by
  induction ps generalizing s cs with
  | nil => exact absurd rfl hp
  | cons p ps ih =>
    obtain ⟨r, rs, hrest⟩ := List.exists_cons_of_ne_nil (List.append_ne_nil_of_right_ne_nil ps hq)
    rw [List.cons_append, hrest] at h
    obtain ⟨rest, rfl, huncut, hafter⟩ := eq_append_sep_of_splitFrom h
    rw [splitFrom_append_sep hsep hafter, splitFrom_of_uncut huncut, List.singleton_append] at h
    cases ps with
    | nil => rwa [List.intercalate_singleton]
    | cons p' ps =>
      have hbehind := ih (List.cons_ne_nil p' ps) ((List.cons.inj h).2.trans hrest.symm)
      rw [List.intercalate_cons_cons, Scan.after_append, Scan.after_append, hafter]
      show (Scan.start.next sep).after _ = .start
      rw [hsep, hbehind]

theorem cutBetween_iff (hsep : Scan.start.next sep = .start) :
    CutBetween sep (splitTop sep cs) before behind ↔
      cs = before ++ sep :: behind ∧ Scan.start.after before = .start := by
  constructor
  · intro h
    refine ⟨h.spelled, ?_⟩
    obtain ⟨ps, qs, hp, hq, hpieces, rfl, -⟩ := h
    exact after_of_splitFrom hsep hp hq hpieces
  · rintro ⟨rfl, hafter⟩
    exact ⟨splitTop sep before, splitTop sep behind, splitFrom_ne_nil sep .start before,
      splitFrom_ne_nil sep .start behind, splitFrom_append_sep hsep hafter,
      intercalate_splitFrom sep .start before, intercalate_splitFrom sep .start behind⟩

/-- A text cut at commas or at colons is spelled by its pieces with the separator between them.
It is cut exactly at the separators before which the text ends outside quotes with as many
parentheses opened as closed, and so the pieces of two texts with a separator between them are
those of both, if the first one ends there. The depth that is counted on the way is at most the
number of parentheses, so it fits 32 bits wherever that number does. -/
theorem pieces_spell_text (hsep : sep = ',' ∨ sep = ':') :
    (∀ cs, [sep].intercalate (splitTop sep cs) = cs) ∧
    (∀ cs before behind, CutBetween sep (splitTop sep cs) before behind ↔
      cs = before ++ sep :: behind ∧ Outside 0 before) ∧
    (∀ a b, Outside 0 a → splitTop sep (a ++ sep :: b) = splitTop sep a ++ splitTop sep b) ∧
    ∀ cs before, before <+: cs → (Scan.start.after before).depth.natAbs ≤ parens cs := by
  have hnext : Scan.start.next sep = .start := by
    rcases hsep with rfl | rfl <;> rfl
  refine ⟨intercalate_splitFrom sep .start, fun cs before behind => ?_, fun a b ha => ?_,
    fun cs before hbefore => ?_⟩
  · rw [cutBetween_iff hnext, ← Scan.after_eq_iff]
    rfl
  · exact splitFrom_append_sep hnext (Scan.after_eq_iff.mpr ha)
  · have hdepth := natAbs_depth_after_le .start before
    have hparens : parens before ≤ parens cs := hbefore.sublist.countP_le
    have hstart : Scan.start.depth.natAbs = 0 := rfl
    omega

/-- Parentheses and quotes hide commas, and what a text leaves open hides them to its end. -/
theorem hidden_commas_do_not_cut :
    Outside 0 "f(b, ',)')".toList ∧ "f(b,".toList <+: "f(b, ',)'),'x,(".toList ∧
    splitTop ',' "f(b, ',)'),'x,(".toList = ["f(b, ',)')".toList, "'x,(".toList] ∧
    CutBetween ',' (splitTop ',' "f(b, ',)'),'x,(".toList) "f(b, ',)')".toList "'x,(".toList ∧
    (Scan.start.after "f(b,".toList).depth.natAbs ≤ 4 := by
  obtain ⟨-, hcut, happend, hdepth⟩ := pieces_spell_text (.inl rfl : ',' = ',' ∨ ',' = ':')
  have hout : Outside 0 "f(b, ',)')".toList := Scan.after_eq_iff.mp (by decide)
  have hfront : "f(b,".toList <+: "f(b, ',)'),'x,(".toList := by decide
  exact ⟨hout, hfront, happend _ "'x,(".toList hout, (hcut _ _ _).mpr ⟨by decide, hout⟩,
    hdepth _ _ hfront⟩

end SqlBuilder.Text
