import Mathlib.Data.List.DropRight
import SqlBuilder.Text.Blank
import SqlBuilder.Text.TopLevel

/-!
# Trimmed texts and pieces of lists

A text with something visible at both ends is not trimmed. A list of texts is cut back into
these texts, as long as none of them opens what it does not close and none holds a separator
of its own.
-/
namespace SqlBuilder.Text

theorem intercalate_of_append {P : List Char → Prop} {sep : List Char}
    (happend : ∀ a b, P a → P b → P (a ++ sep ++ b)) {texts : List (List Char)}
    (hne : texts ≠ []) (h : ∀ t ∈ texts, P t) : P (sep.intercalate texts) := by
  induction texts with
  | nil => exact absurd rfl hne
  | cons t texts ih =>
    rw [List.forall_mem_cons] at h
    cases texts with
    | nil =>
      rw [List.intercalate_singleton]
      exact h.1
    | cons u us =>
      rw [List.intercalate_cons_cons]
      exact happend t _ h.1 (ih (List.cons_ne_nil u us) h.2)

theorem trim_sublist (cs : List Char) : (trim cs).Sublist cs := by
  have hend : ((trimStart cs).reverse.dropWhile isBlank).reverse.Sublist (trimStart cs) :=
    List.reverse_sublist.mp (by simpa using List.dropWhile_sublist isBlank)
  exact hend.trans (List.dropWhile_sublist isBlank)

theorem mem_of_mem_trim {cs : List Char} {c : Char} (h : c ∈ trim cs) : c ∈ cs :=
  (trim_sublist cs).subset h

/-- The text begins and ends with characters that are not blank. -/
structure Tight (cs : List Char) : Prop where
  first : ∃ c ds, cs = c :: ds ∧ isBlank c = false
  last : ∃ c ds, cs = ds ++ [c] ∧ isBlank c = false

theorem Tight.ne_nil {cs : List Char} (h : Tight cs) : cs ≠ [] := by
  obtain ⟨c, ds, rfl, -⟩ := h.first
  exact List.cons_ne_nil c ds

theorem Tight.append {a b : List Char} (ha : Tight a) (m : List Char) (hb : Tight b) :
    Tight (a ++ m ++ b) := by
  obtain ⟨c, ds, rfl, hc⟩ := ha.first
  obtain ⟨d, es, rfl, hd⟩ := hb.last
  exact ⟨⟨c, ds ++ m ++ (es ++ [d]), rfl, hc⟩,
    ⟨d, c :: ds ++ m ++ es, (List.append_assoc _ _ _).symm, hd⟩⟩

theorem Tight.trim {cs : List Char} (h : Tight cs) : Text.trim cs = cs := by
  obtain ⟨c, ds, hfirst, hc⟩ := h.first
  obtain ⟨d, es, hlast, hd⟩ := h.last
  have hstart : trimStart cs = cs := by
    rw [trimStart, hfirst, List.dropWhile_cons_of_neg (by simp [hc])]
  rw [Text.trim, hstart, trimEnd, hlast, List.reverse_append, List.reverse_singleton,
    List.singleton_append, List.dropWhile_cons_of_neg (by simp [hd]), List.reverse_cons,
    List.reverse_reverse]

theorem trim_cons_blank {c : Char} (h : isBlank c = true) (cs : List Char) :
    trim (c :: cs) = trim cs := by
  rw [trim, trim, trimStart, List.dropWhile_cons_of_pos h, trimStart]

theorem trimStart_append (a b : List Char) :
    trimStart (a ++ b) = if trimStart a = [] then trimStart b else trimStart a ++ b := by
  simp [trimStart, List.dropWhile_append]

theorem trimEnd_append (a b : List Char) :
    trimEnd (a ++ b) = if trimEnd b = [] then trimEnd a else a ++ trimEnd b := by
  simp only [trimEnd, List.reverse_append, List.dropWhile_append, List.isEmpty_iff,
    List.reverse_eq_nil_iff]
  split
  · rfl
  · rw [List.reverse_append, List.reverse_reverse]

theorem trimStart_eq_nil {cs : List Char} : trimStart cs = [] ↔ allBlank cs = true := by
  rw [trimStart, List.dropWhile_eq_nil_iff, allBlank, List.all_eq_true]

theorem trimEnd_eq_nil {cs : List Char} : trimEnd cs = [] ↔ allBlank cs = true := by
  rw [trimEnd, List.reverse_eq_nil_iff, List.dropWhile_eq_nil_iff, allBlank, List.all_eq_true]
  simp only [List.mem_reverse]

theorem exists_trimEnd_append (cs : List Char) : ∃ blanks, allBlank blanks = true ∧
    cs = trimEnd cs ++ blanks := by
  refine ⟨(cs.reverse.takeWhile isBlank).reverse, ?_, ?_⟩
  · rw [allBlank, List.all_reverse, List.all_takeWhile]
  · rw [trimEnd, ← List.reverse_append, List.takeWhile_append_dropWhile, List.reverse_reverse]

theorem trim_append_blanks {blanks : List Char} (h : allBlank blanks = true) (cs : List Char) :
    trim (cs ++ blanks) = trim cs := by
  rw [trim, trim, trimStart_append, trimStart_eq_nil.mpr h]
  split
  · rename_i hcs
    rw [hcs]
  · rw [trimEnd_append, if_pos (trimEnd_eq_nil.mpr h)]

@[simp] theorem trim_trimStart (cs : List Char) : trim (trimStart cs) = trim cs := by
  rw [trim, trim, trimStart, trimStart, List.dropWhile_idempotent]

@[simp] theorem trim_trimEnd (cs : List Char) : trim (trimEnd cs) = trim cs := by
  obtain ⟨blanks, hblanks, hcs⟩ := exists_trimEnd_append cs
  conv_rhs => rw [hcs, trim_append_blanks hblanks]

@[simp] theorem trim_trim (cs : List Char) : trim (trim cs) = trim cs :=
  (trim_trimEnd (trimStart cs)).trans (trim_trimStart cs)

theorem trim_eq_nil {cs : List Char} : trim cs = [] ↔ allBlank cs = true := by
  constructor
  · intro h
    obtain ⟨blanks, hblanks, hcs⟩ := exists_trimEnd_append (trimStart cs)
    have hstart : trimStart cs = blanks := hcs.trans (congrArg (· ++ blanks) h)
    have hall : trimStart (trimStart cs) = [] := by rw [hstart, trimStart_eq_nil, hblanks]
    rwa [trimStart, trimStart, List.dropWhile_idempotent, ← trimStart, trimStart_eq_nil] at hall
  · intro h
    rw [trim, trimStart_eq_nil.mpr h]
    rfl

theorem trim_append_cons {c : Char} (hc : isBlank c = false) (a b : List Char) :
    trim (a ++ c :: b) = trimStart a ++ c :: trimEnd b := by
  have hstart : trimStart (a ++ c :: b) = trimStart a ++ c :: b := by
    rw [trimStart_append, trimStart.eq_def (c :: b), List.dropWhile_cons_of_neg (by simp [hc])]
    split
    · rename_i ha
      rw [ha, List.nil_append]
    · rfl
  have hend : trimEnd (c :: b) = c :: trimEnd b := by
    rw [← List.singleton_append, trimEnd_append]
    split
    · rename_i hb
      rw [hb]
      simp [trimEnd, hc]
    · rfl
  rw [trim, hstart, trimEnd_append, hend, if_neg (List.cons_ne_nil _ _)]

/-- A scan of the text meets no separator at the top level. -/
def Uncut (sep : Char) : Scan → List Char → Prop
  | _, [] => True
  | s, c :: cs => (s.atTop && c = sep) = false ∧ Uncut sep (s.next c) cs

/-- A scan of the text meets no separator at the top level and comes back to where it began. -/
structure Returns (sep : Char) (s : Scan) (cs : List Char) : Prop where
  uncut : Uncut sep s cs
  after : s.after cs = s

instance instDecidableUncut (sep : Char) : (s : Scan) → (cs : List Char) →
    Decidable (Uncut sep s cs)
  | _, [] => .isTrue trivial
  | s, c :: cs => @instDecidableAnd _ _ inferInstance (instDecidableUncut sep (s.next c) cs)

instance (sep : Char) (s : Scan) (cs : List Char) : Decidable (Returns sep s cs) :=
  decidable_of_iff (Uncut sep s cs ∧ s.after cs = s) ⟨fun h => ⟨h.1, h.2⟩, fun h => ⟨h.1, h.2⟩⟩

variable {sep : Char} {s : Scan} {a b : List Char}

theorem Scan.after_append (s : Scan) (a b : List Char) :
    s.after (a ++ b) = (s.after a).after b := List.foldl_append

theorem uncut_append : Uncut sep s (a ++ b) ↔ Uncut sep s a ∧ Uncut sep (s.after a) b := by
  induction a generalizing s with
  | nil => exact ⟨fun h => ⟨trivial, h⟩, fun h => h.2⟩
  | cons c a ih => rw [List.cons_append, Uncut, Uncut, ih, and_assoc]; rfl

theorem uncut_of_notMem (h : sep ∉ a) (s : Scan) : Uncut sep s a := by
  induction a generalizing s with
  | nil => trivial
  | cons c a ih =>
    rw [List.mem_cons, not_or] at h
    exact ⟨by simp [Ne.symm h.1], ih h.2 (s.next c)⟩

theorem Returns.append (ha : Returns sep s a) (hb : Returns sep s b) : Returns sep s (a ++ b) := by
  constructor
  · rw [uncut_append, ha.after]
    exact ⟨ha.uncut, hb.uncut⟩
  · rw [Scan.after_append, ha.after, hb.after]

theorem Returns.flatMap {α : Type} {xs : List α} {f : α → List Char}
    (h : ∀ x ∈ xs, Returns sep s (f x)) : Returns sep s (xs.flatMap f) := by
  induction xs with
  | nil => exact ⟨trivial, rfl⟩
  | cons x xs ih =>
    rw [List.forall_mem_cons] at h
    exact h.1.append (ih h.2)

theorem splitFrom_of_uncut (h : Uncut sep s a) : splitFrom sep s a = [a] := by
  induction a generalizing s with
  | nil => rfl
  | cons c a ih =>
    rw [splitFrom, if_neg (Bool.eq_false_iff.mp h.1), ih h.2]
    rfl

theorem consPiece_append (c : Char) {ps : List (List Char)} (h : 0 < ps.length)
    (qs : List (List Char)) : consPiece c (ps ++ qs) = consPiece c ps ++ qs := by
  cases ps with
  | nil => exact absurd h (by decide)
  | cons p ps => rfl

theorem Scan.eq_start_of_atTop (h : s.atTop = true) : s = .start := by
  obtain ⟨quote, depth⟩ := s
  simp only [atTop, Bool.and_eq_true, decide_eq_true_eq] at h
  rw [h.1, h.2]
  rfl

/-- Where the scan of a text ends at the top level, a separator cuts: the pieces are those of
the text before it and those of the text after it. -/
theorem splitFrom_append_sep (hsep : Scan.start.next sep = .start) (ha : s.after a = .start) :
    splitFrom sep s (a ++ sep :: b) = splitFrom sep s a ++ splitTop sep b := by
  induction a generalizing s with
  | nil =>
    have hs : s = .start := ha
    subst hs
    have hcut : (Scan.start.atTop && decide (sep = sep)) = true := by
      rw [decide_eq_true rfl]
      rfl
    show splitFrom sep .start (sep :: b) = [] :: splitTop sep b
    rw [splitFrom, if_pos hcut]
    rfl
  | cons c a ih =>
    rw [List.cons_append, splitFrom, splitFrom]
    by_cases hcut : (s.atTop && c = sep) = true
    · rw [if_pos hcut, if_pos hcut]
      rw [Bool.and_eq_true, decide_eq_true_eq] at hcut
      have hstay : s.next c = s := by rw [Scan.eq_start_of_atTop hcut.1, hcut.2, hsep]
      have hrest : (s.next c).after a = .start := ha
      rw [hstay] at hrest
      rw [ih hrest, List.cons_append]
    · rw [if_neg hcut, if_neg hcut, ih ha,
        consPiece_append c (length_splitFrom_pos sep (s.next c) a)]

theorem eq_append_sep_of_splitFrom {p q : List Char} {ps : List (List Char)}
    (h : splitFrom sep s a = p :: q :: ps) :
    ∃ rest, a = p ++ sep :: rest ∧ Uncut sep s p ∧ s.after p = .start := by
  induction a generalizing s p with
  | nil => cases h
  | cons c a ih =>
    rw [splitFrom] at h
    split at h
    · rename_i hcut
      rw [Bool.and_eq_true, decide_eq_true_eq] at hcut
      obtain ⟨rfl, -⟩ := List.cons.inj h
      exact ⟨a, congrArg (· :: a) hcut.2, trivial, Scan.eq_start_of_atTop hcut.1⟩
    · rename_i hcut
      cases hrest : splitFrom sep (s.next c) a with
      | nil =>
        rw [hrest] at h
        cases h
      | cons p' ps' =>
        rw [hrest, consPiece] at h
        obtain ⟨rfl, rfl⟩ := List.cons.inj h
        obtain ⟨rest, rfl, huncut, hafter⟩ := ih hrest
        exact ⟨rest, rfl, ⟨Bool.eq_false_iff.mpr hcut, huncut⟩, hafter⟩

/-- The first piece ends at a separator if and only if the text before it is whole. -/
theorem splitTop_append_sep_iff (hsep : Scan.start.next sep = .start) :
    splitTop sep (a ++ sep :: b) = a :: splitTop sep b ↔ Returns sep .start a := by
  constructor
  · intro h
    obtain ⟨q, qs, hpieces⟩ := List.exists_cons_of_length_pos (length_splitFrom_pos sep .start b)
    rw [splitTop, splitTop, hpieces] at h
    obtain ⟨_, -, huncut, hafter⟩ := eq_append_sep_of_splitFrom h
    exact ⟨huncut, hafter⟩
  · intro h
    rw [splitTop, splitFrom_append_sep hsep h.after, splitFrom_of_uncut h.uncut]
    rfl

theorem splitTop_cons_blank {c : Char} (hblank : isBlank c = true) (hsep : c ≠ sep)
    (hnext : Scan.start.next c = .start) (cs : List Char) :
    (splitTop sep (c :: cs)).map trim = (splitTop sep cs).map trim := by
  have hpos := length_splitFrom_pos sep .start cs
  rw [splitTop, splitTop, splitFrom, if_neg (by simp [hsep]), hnext]
  cases hpieces : splitFrom sep .start cs with
  | nil =>
    rw [hpieces] at hpos
    exact absurd hpos (by decide)
  | cons p ps => rw [consPiece, List.map_cons, List.map_cons, trim_cons_blank hblank]

theorem next_of_isBlank {c : Char} (h : isBlank c = true) :
    c ≠ ',' ∧ Scan.start.next c = .start := by
  have hne {d : Char} (hd : isBlank d = false) : c ≠ d := by
    rintro rfl
    rw [h] at hd
    cases hd
  have hquote : Scan.isQuote c = false := by
    simp [Scan.isQuote, hne (d := '\'') (by decide), hne (d := '"') (by decide),
      hne (d := '\x60') (by decide)]
  refine ⟨hne (by decide), ?_⟩
  simp [Scan.next, Scan.start, hquote, hne (d := '(') (by decide), hne (d := ')') (by decide)]

theorem splitTop_blanks_append {gap : List Char} (hgap : allBlank gap = true) (cs : List Char) :
    (splitTop ',' (gap ++ cs)).map trim = (splitTop ',' cs).map trim := by
  induction gap with
  | nil => rfl
  | cons c gap ih =>
    rw [allBlank, List.all_cons, Bool.and_eq_true] at hgap
    obtain ⟨hsep, hnext⟩ := next_of_isBlank hgap.1
    rw [List.cons_append, splitTop_cons_blank hgap.1 hsep hnext, ih hgap.2]

theorem uncut_blanks {blanks : List Char} (h : allBlank blanks = true) (s : Scan) :
    Uncut ',' s blanks := by
  refine uncut_of_notMem (fun hmem => ?_) s
  rw [allBlank, List.all_eq_true] at h
  exact (next_of_isBlank (h _ hmem)).1 rfl

theorem after_blanks {blanks : List Char} (h : allBlank blanks = true) :
    Scan.start.after blanks = .start := by
  induction blanks with
  | nil => rfl
  | cons c blanks ih =>
    rw [allBlank, List.all_cons, Bool.and_eq_true] at h
    show (Scan.start.next c).after blanks = .start
    rw [(next_of_isBlank h.1).2]
    exact ih h.2

theorem map_trimEnd_consPiece {ps qs : List (List Char)} (h : ps.map trimEnd = qs.map trimEnd)
    (c : Char) : (consPiece c ps).map trimEnd = (consPiece c qs).map trimEnd := by
  cases ps with
  | nil =>
    rw [List.map_nil, eq_comm, List.map_eq_nil_iff] at h
    rw [h]
  | cons p ps =>
    cases qs with
    | nil => cases h
    | cons q qs =>
      rw [List.map_cons, List.map_cons, List.cons.injEq] at h
      have hcons : trimEnd (c :: p) = trimEnd (c :: q) := by
        rw [← List.singleton_append, trimEnd_append, h.1, ← trimEnd_append, List.singleton_append]
      rw [consPiece, consPiece, List.map_cons, List.map_cons, hcons, h.2]

theorem splitFrom_append_blanks {blanks : List Char} (h : allBlank blanks = true) (s : Scan)
    (cs : List Char) :
    (splitFrom ',' s (cs ++ blanks)).map trimEnd = (splitFrom ',' s cs).map trimEnd := by
  induction cs generalizing s with
  | nil =>
    rw [List.nil_append, splitFrom_of_uncut (uncut_blanks h s), List.map_singleton,
      trimEnd_eq_nil.mpr h]
    rfl
  | cons c cs ih =>
    rw [List.cons_append, splitFrom, splitFrom]
    split
    · rw [List.map_cons, List.map_cons, ih]
    · exact map_trimEnd_consPiece (ih (s.next c)) c

theorem splitTop_trim (cs : List Char) :
    (splitTop ',' (trim cs)).map trim = (splitTop ',' cs).map trim := by
  have hends (ps : List (List Char)) : ps.map trim = (ps.map trimEnd).map trim := by simp
  obtain ⟨blanks, hblanks, hend⟩ := exists_trimEnd_append (trimStart cs)
  have hstart : (splitTop ',' cs).map trim = (splitTop ',' (trimStart cs)).map trim := by
    conv_lhs => rw [← List.takeWhile_append_dropWhile (p := isBlank) (l := cs)]
    exact splitTop_blanks_append List.all_takeWhile _
  have hpieces : (splitTop ',' (trimStart cs)).map trimEnd =
      (splitTop ',' (trim cs)).map trimEnd := by
    conv_lhs => rw [hend]
    exact splitFrom_append_blanks hblanks .start (trim cs)
  rw [hstart, hends (splitTop ',' (trimStart cs)), hpieces, ← hends]

theorem splitTop_joined {gap : List Char} (hgap : allBlank gap = true)
    {texts : List (List Char)} (hne : texts ≠ []) (h : ∀ t ∈ texts, Returns ',' .start t) :
    (splitTop ',' ((',' :: gap).intercalate texts)).map trim = texts.map trim := by
  induction texts with
  | nil => exact absurd rfl hne
  | cons t texts ih =>
    rw [List.forall_mem_cons] at h
    cases texts with
    | nil => rw [List.intercalate_singleton, splitTop, splitFrom_of_uncut h.1.uncut]
    | cons u us =>
      have hrest := ih (List.cons_ne_nil u us) h.2
      rw [List.intercalate_cons_cons, List.append_assoc, List.cons_append, splitTop,
        splitFrom_append_sep rfl h.1.after, splitFrom_of_uncut h.1.uncut, List.map_append,
        splitTop_blanks_append hgap, hrest]
      rfl

theorem splitTop_commas {texts : List (List Char)} (hne : texts ≠ [])
    (h : ∀ t ∈ texts, Returns ',' .start t) :
    (splitTop ',' ([',', ' '].intercalate texts)).map trim = texts.map trim :=
  splitTop_joined (by decide) hne h

end SqlBuilder.Text
