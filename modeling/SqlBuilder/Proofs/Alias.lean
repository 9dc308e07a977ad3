import SqlBuilder.Field
import SqlBuilder.Proofs.Ident
import SqlBuilder.Proofs.Outcome

/-!
# Quoted names in field text

Field text is cut at its commas, then at its last ` AS `, and the rest is read as names. The first
and the last of these know of quotes; the one between does not. So a quoted name is kept, whatever
else it holds, unless it is the last one and ` AS ` stands inside it.
-/
namespace SqlBuilder.Field

open Ident (IsQuote doubled quotedName)
open splitAlias (lastMark)

variable {e : Engine} {q q' d : Char} {cs mark before after x y : List Char}

/-- How ` AS ` may be written. -/
def IsMark (mark : List Char) : Prop := mark.map Char.toLower = [' ', 'a', 's', ' ']

instance : DecidablePred IsMark := fun _ => inferInstanceAs (Decidable (_ = _))

def Marked (cs : List Char) : Prop := ∃ mark, IsMark mark ∧ mark <:+: cs

theorem IsMark.length (h : IsMark mark) : mark.length = 4 := by
  simpa using congrArg List.length h

theorem IsMark.ne_nil (h : IsMark mark) : mark ≠ [] := by
  rintro rfl
  cases h

theorem IsMark.notMem (h : IsMark mark) (hd : d.toLower ∉ [' ', 'a', 's', ' ']) : d ∉ mark :=
  fun hmem => hd (h ▸ List.mem_map_of_mem hmem)

theorem IsMark.quote_notMem (h : IsMark mark) (hq : IsQuote q) : q ∉ mark := by
  rcases hq with rfl | rfl <;> exact h.notMem (by decide)

theorem IsMark.exists_cons (h : IsMark mark) : ∃ ms, mark = ' ' :: ms := by
  obtain ⟨c, ms, rfl⟩ := List.exists_cons_of_ne_nil h.ne_nil
  have hlower : c.toLower = ' ' := (List.cons.inj h).1
  unfold Char.toLower at hlower
  split at hlower
  · rename_i hupper
    have hval : c.val = 0 := by simpa using congrArg Char.val hlower
    rw [hval] at hupper
    exact absurd hupper (by decide)
  · exact ⟨ms, by rw [hlower]⟩

theorem IsMark.returns (h : IsMark mark) : Text.Returns ',' .start mark := by
  have hplain (c : Char) (hc : c ∈ mark) : Text.Returns ',' .start [c] := by
    have hne (d : Char) (hd : d.toLower ∉ [' ', 'a', 's', ' ']) : c ≠ d :=
      ne_of_mem_of_not_mem hc (h.notMem hd)
    have hquote : Text.Scan.isQuote c = false := by
      simp [Text.Scan.isQuote, hne '\'' (by decide), hne '"' (by decide), hne '\x60' (by decide)]
    have hnext : Text.Scan.start.next c = .start := by
      simp [Text.Scan.next, Text.Scan.start, hquote, hne '(' (by decide), hne ')' (by decide)]
    exact ⟨⟨by simp [hne ',' (by decide)], trivial⟩, hnext⟩
  have hflat := Text.Returns.flatMap hplain
  rwa [List.flatMap_singleton'] at hflat

theorem isMark_take_iff : IsMark (cs.take 4) ↔ ∃ mark, IsMark mark ∧ mark <+: cs := by
  constructor
  · intro h
    exact ⟨_, h, List.take_prefix 4 cs⟩
  · rintro ⟨mark, hmark, hprefix⟩
    rwa [← hmark.length, ← List.prefix_iff_eq_take.mp hprefix]

theorem marked_cons (c : Char) (cs : List Char) :
    Marked (c :: cs) ↔ IsMark ((c :: cs).take 4) ∨ Marked cs := by
  rw [isMark_take_iff, Marked, Marked, ← exists_or]
  simp only [List.infix_cons_iff, and_or_left]

theorem not_marked_of_length (h : cs.length < 4) : ¬Marked cs := by
  rintro ⟨mark, hmark, hinfix⟩
  have hle := hinfix.length_le
  rw [hmark.length] at hle
  omega

/-- No mark reaches over a character that is in none. -/
theorem marked_append_cons (hd : d.toLower ∉ [' ', 'a', 's', ' ']) :
    Marked (x ++ d :: y) ↔ Marked x ∨ Marked y := by
  constructor
  · rintro ⟨mark, hmark, hinfix⟩
    have hout : d ∉ mark := hmark.notMem hd
    rcases List.infix_append_iff.mp hinfix with hx | hy | ⟨l, r, rfl, hx, hy⟩
    · exact .inl ⟨mark, hmark, hx⟩
    · rcases List.infix_cons_iff.mp hy with hprefix | hy
      · rcases List.prefix_cons_iff.mp hprefix with rfl | ⟨t, rfl, -⟩
        · exact absurd rfl hmark.ne_nil
        · exact absurd List.mem_cons_self hout
      · exact .inr ⟨mark, hmark, hy⟩
    · rcases List.prefix_cons_iff.mp hy with rfl | ⟨t, rfl, -⟩
      · rw [List.append_nil] at hmark
        exact .inl ⟨l, hmark, hx.isInfix⟩
      · exact absurd (List.mem_append_right l List.mem_cons_self) hout
  · rintro (⟨mark, hmark, hinfix⟩ | ⟨mark, hmark, hinfix⟩)
    · exact ⟨mark, hmark, hinfix.trans (List.prefix_append x (d :: y)).isInfix⟩
    · refine ⟨mark, hmark, hinfix.trans ?_⟩
      exact ((List.suffix_cons d y).trans (List.suffix_append x (d :: y))).isInfix

theorem lastMark_eq_none_iff : lastMark cs = none ↔ ¬Marked cs := by
  induction cs with
  | nil => exact iff_of_true rfl (not_marked_of_length (by decide))
  | cons c cs ih =>
    rw [lastMark, marked_cons, not_or, ← ih]
    cases lastMark cs with
    | some found => simp
    | none => simp [IsMark]

theorem exists_of_lastMark (h : lastMark cs = some (before, after)) :
    ∃ mark, IsMark mark ∧ cs = before ++ (mark ++ after) := by
  induction cs generalizing before with
  | nil => cases h
  | cons c cs ih =>
    rw [lastMark] at h
    cases hrest : lastMark cs with
    | some found =>
      rw [hrest] at h
      cases h
      obtain ⟨mark, hmark, rfl⟩ := ih hrest
      exact ⟨mark, hmark, rfl⟩
    | none =>
      rw [hrest] at h
      dsimp only at h
      split at h
      · rename_i hmark
        cases h
        exact ⟨_, hmark, (List.take_append_drop 4 (c :: cs)).symm⟩
      · cases h

theorem lastMark_append (x : List Char) (h : lastMark cs = some (before, after)) :
    lastMark (x ++ cs) = some (x ++ before, after) := by
  induction x with
  | nil => exact h
  | cons c x ih => rw [List.cons_append, lastMark, ih, List.cons_append]

theorem lastMark_mark (hmark : IsMark mark) (h : ¬Marked (mark ++ after).tail) :
    lastMark (mark ++ after) = some ([], after) := by
  obtain ⟨c, rest, rfl⟩ := List.exists_cons_of_ne_nil hmark.ne_nil
  rw [List.cons_append, List.tail_cons, ← lastMark_eq_none_iff] at h
  have htake : (c :: rest ++ after).take 4 = c :: rest := List.take_left' hmark.length
  have hdrop : (c :: rest ++ after).drop 4 = after := List.drop_left' hmark.length
  rw [List.cons_append] at htake hdrop ⊢
  rw [lastMark, h, htake, hdrop]
  exact if_pos hmark

theorem doubled_append (q : Char) (x y : List Char) :
    doubled q (x ++ y) = doubled q x ++ doubled q y := List.flatMap_append

theorem doubled_of_notMem (h : q ∉ cs) : doubled q cs = cs := by
  rw [doubled, List.flatMap_congr (g := fun c => [c]), List.flatMap_singleton']
  intro c hc
  exact if_neg (ne_of_mem_of_not_mem hc h)

theorem doubled_eq_nil (h : doubled q cs = []) : cs = [] := by
  cases cs with
  | nil => rfl
  | cons c cs =>
    have hc := List.flatMap_eq_nil_iff.mp h c List.mem_cons_self
    split at hc <;> cases hc

/-- A doubled text is cut only between characters of the text, unless the cut is at a quote. -/
theorem exists_of_doubled_eq_cons (hd : d ≠ q) (h : doubled q cs = x ++ d :: y) :
    ∃ a b, cs = a ++ d :: b ∧ doubled q a = x ∧ doubled q b = y := by
  induction cs generalizing x with
  | nil => exact absurd h.symm (List.append_ne_nil_of_right_ne_nil x (List.cons_ne_nil d y))
  | cons c cs ih =>
    by_cases hc : c = q
    · have hcons : q :: q :: doubled q cs = x ++ d :: y := by rw [← h]; simp [doubled, hc]
      -- The two quotes stand for one character, so both lie before the cut.
      rcases x with _ | ⟨u, _ | ⟨v, x⟩⟩
      · exact absurd (List.cons.inj hcons).1.symm hd
      · exact absurd (List.cons.inj (List.cons.inj hcons).2).1.symm hd
      · obtain ⟨rfl, htail⟩ := List.cons.inj hcons
        obtain ⟨rfl, hrest⟩ := List.cons.inj htail
        obtain ⟨a, b, rfl, rfl, rfl⟩ := ih hrest
        exact ⟨c :: a, b, rfl, by simp [doubled, hc], rfl⟩
    · have hcons : c :: doubled q cs = x ++ d :: y := by rw [← h]; simp [doubled, hc]
      cases x with
      | nil =>
        obtain ⟨rfl, rfl⟩ := List.cons.inj hcons
        exact ⟨[], cs, rfl, rfl, rfl⟩
      | cons u x =>
        obtain ⟨rfl, htail⟩ := List.cons.inj hcons
        obtain ⟨a, b, rfl, rfl, rfl⟩ := ih htail
        exact ⟨c :: a, b, rfl, by simp [doubled, hc], rfl⟩

theorem exists_of_doubled_eq_append (hq : q ∉ x) (h : doubled q cs = x ++ y) :
    ∃ b, cs = x ++ b ∧ doubled q b = y := by
  induction x generalizing cs with
  | nil => exact ⟨cs, rfl, h⟩
  | cons d x ih =>
    rw [List.mem_cons, not_or] at hq
    obtain ⟨a, rest, rfl, ha, hrest⟩ :=
      exists_of_doubled_eq_cons (x := []) (Ne.symm hq.1) h
    obtain ⟨b, rfl, hb⟩ := ih hq.2 hrest
    rw [doubled_eq_nil ha]
    exact ⟨b, rfl, hb⟩

section Quote

variable (hq : IsQuote q)
include hq

theorem exists_of_doubled_eq_mark (hmark : IsMark mark) (h : doubled q cs = x ++ (mark ++ y)) :
    ∃ a b, cs = a ++ (mark ++ b) ∧ doubled q a = x ∧ doubled q b = y := by
  have hout := hmark.quote_notMem hq
  obtain ⟨m, ms, rfl⟩ := List.exists_cons_of_ne_nil hmark.ne_nil
  rw [List.mem_cons, not_or] at hout
  obtain ⟨a, rest, rfl, ha, hrest⟩ := exists_of_doubled_eq_cons (Ne.symm hout.1) h
  obtain ⟨b, rfl, hb⟩ := exists_of_doubled_eq_append hout.2 hrest
  exact ⟨a, b, rfl, ha, hb⟩

theorem marked_doubled : Marked (doubled q cs) ↔ Marked cs := by
  constructor
  · rintro ⟨mark, hmark, b, a, h⟩
    rw [List.append_assoc] at h
    obtain ⟨b, a, rfl, -, -⟩ := exists_of_doubled_eq_mark hq hmark h.symm
    exact ⟨mark, hmark, b, a, List.append_assoc b mark a⟩
  · rintro ⟨mark, hmark, b, a, rfl⟩
    refine ⟨mark, hmark, doubled q b, doubled q a, ?_⟩
    rw [doubled_append, doubled_append, doubled_of_notMem (hmark.quote_notMem hq)]

theorem toLower_quote : q.toLower ∉ [' ', 'a', 's', ' '] := by
  rcases hq with rfl | rfl <;> decide

theorem marked_closed : Marked (doubled q cs ++ [q]) ↔ Marked cs := by
  have hnone : ¬Marked [] := not_marked_of_length (by decide)
  rw [marked_append_cons (toLower_quote hq), marked_doubled hq, or_iff_left hnone]

theorem marked_quoted : Marked (q :: (doubled q cs ++ [q])) ↔ Marked cs := by
  have hnone : ¬Marked [] := not_marked_of_length (by decide)
  have hopen := marked_append_cons (x := []) (y := doubled q cs ++ [q]) (toLower_quote hq)
  rwa [List.nil_append, or_iff_right hnone, marked_closed hq] at hopen

/-- Where a quoted name is cut at a mark, its own quotes stay at both ends. -/
theorem exists_of_quoted_eq_mark (hmark : IsMark mark)
    (h : q :: (doubled q cs ++ [q]) = before ++ (mark ++ after)) :
    ∃ a b, cs = a ++ (mark ++ b) ∧ before = q :: doubled q a ∧ after = doubled q b ++ [q] := by
  have hout := hmark.quote_notMem hq
  cases before with
  | nil =>
    obtain ⟨m, ms, rfl⟩ := List.exists_cons_of_ne_nil hmark.ne_nil
    exact absurd ((List.cons.inj h).1 ▸ List.mem_cons_self) hout
  | cons c before =>
    obtain ⟨rfl, htail⟩ := List.cons.inj h
    rcases List.eq_nil_or_concat' after with rfl | ⟨rest, c, rfl⟩
    · have hlast := congrArg List.getLast? htail
      rw [List.append_nil, List.getLast?_concat, List.append_eq,
        List.getLast?_append_of_ne_nil _ hmark.ne_nil] at hlast
      exact absurd (List.mem_of_getLast? hlast.symm) hout
    · have hcut : doubled q cs ++ [q] = (before ++ (mark ++ rest)) ++ [c] := by
        rw [htail, List.append_eq, List.append_assoc, List.append_assoc]
      obtain ⟨hbody, hc⟩ := List.append_inj' hcut rfl
      cases hc
      obtain ⟨a, b, rfl, rfl, rfl⟩ := exists_of_doubled_eq_mark hq hmark hbody
      exact ⟨a, b, rfl, rfl, rfl⟩

end Quote

theorem readQuoted_open (q : Char) (cs : List Char) :
    Ident.readQuoted q (doubled q cs) = none := by
  induction cs with
  | nil => rfl
  | cons c cs ih =>
    rw [doubled, List.flatMap_cons, ← doubled]
    by_cases hc : c = q
    · simp [Ident.readQuoted, hc, ih]
    · rw [if_neg hc, List.singleton_append, Ident.readQuoted.eq_def]
      simp [hc, ih]

theorem readSegments_error {whole : String} {fault : Ident.Fault}
    (h : Ident.readSegment whole cs = .error fault) :
    Ident.readSegments whole cs = .error fault := by
  rw [Ident.readSegments]
  split <;> simp_all

theorem quoteIdent_of_trim (e : Engine) (htrim : Text.trim cs = cs) (hne : cs ≠ [])
    (hnul : '\x00' ∉ cs) :
    e.quoteIdent (String.ofList cs) =
      match Ident.readSegments (String.ofList cs) cs with
      | .ok parts => .ok (Ident.toSql e.identQuote ⟨parts⟩)
      | .error fault => .error (.shape (.ident fault)) := by
  have hwhole : Text.trimmed (String.ofList cs) = String.ofList cs := by
    rw [Text.trimmed, String.toList_ofList, htrim]
  rw [Engine.quoteIdent, Ident.parse, hwhole, if_neg (by simpa using hne), String.toList_ofList,
    if_neg hnul]
  cases Ident.readSegments (String.ofList cs) cs <;> rfl

section Names

variable (hq : IsQuote q)
include hq

theorem parse_quotedName {n : String} (hn : (Ident.Part.name n).Valid) :
    Ident.parse (quotedName q n) = .ok ⟨[.name n]⟩ := by
  have hform : Ident.WellFormed ⟨[.name n]⟩ :=
    ⟨List.cons_ne_nil _ _, by simpa using hn, List.not_mem_nil⟩
  have hread := Ident.parse_toSql hq hform
  rwa [Ident.toSql, List.map_singleton, String.intercalate_singleton] at hread

theorem quoteIdent_quotedName (e : Engine) {n : String} (hn : (Ident.Part.name n).Valid) :
    e.quoteIdent (quotedName q n) = .ok (quotedName e.identQuote n) := by
  rw [Engine.quoteIdent, parse_quotedName hq hn]
  show Except.ok (Ident.toSql e.identQuote ⟨[.name n]⟩) = _
  rw [Ident.toSql, List.map_singleton, String.intercalate_singleton]
  rfl

theorem exists_trimEnd_doubled (cs : List Char) :
    ∃ b, Text.trimEnd (doubled q cs) = doubled q b ∧ b ⊆ cs := by
  obtain ⟨blanks, hblanks, hcs⟩ := Text.exists_trimEnd_append (doubled q cs)
  cases blanks with
  | nil =>
    rw [List.append_nil] at hcs
    exact ⟨cs, hcs.symm, List.Subset.refl cs⟩
  | cons d blanks =>
    have hd : d ≠ q := by
      rintro rfl
      rw [Text.allBlank, List.all_cons, Ident.isBlank_quote hq] at hblanks
      cases hblanks
    obtain ⟨a, b, rfl, ha, -⟩ := exists_of_doubled_eq_cons hd hcs
    exact ⟨a, ha.symm, List.subset_append_left a _⟩

/-- A text that opens a quote and then holds only doubled ones is no name, trimmed or not. -/
theorem quoteIdent_open (e : Engine) (hnul : '\x00' ∉ cs) : ∃ whole,
    e.quoteIdent (String.ofList (Text.trim (q :: doubled q cs))) =
      .error (.shape (.ident (.unclosedQuote whole))) := by
  obtain ⟨b, hb, hsub⟩ := exists_trimEnd_doubled hq cs
  have htrim : Text.trim (q :: doubled q cs) = q :: doubled q b := by
    rw [← hb]
    exact Text.trim_append_cons (Ident.isBlank_quote hq) [] (doubled q cs)
  have hnot : '\x00' ∉ q :: doubled q b := by
    rw [List.mem_cons, Ident.mem_doubled, not_or]
    refine ⟨?_, fun hmem => hnul (hsub hmem)⟩
    rcases hq with rfl | rfl <;> decide
  refine ⟨String.ofList (q :: doubled q b), ?_⟩
  have hname : Ident.readName (String.ofList (q :: doubled q b)) q (doubled q b) =
      .error (.unclosedQuote (String.ofList (q :: doubled q b))) := by
    rw [Ident.readName, readQuoted_open]
  have hread : Ident.readSegment (String.ofList (q :: doubled q b)) (q :: doubled q b) =
      .error (.unclosedQuote (String.ofList (q :: doubled q b))) := by
    rcases hq with rfl | rfl <;> exact hname
  rw [htrim, quoteIdent_of_trim e (htrim ▸ Text.trim_trim _) (List.cons_ne_nil _ _) hnot,
    readSegments_error hread]

theorem quoteIdent_run_on (e : Engine) {n : List Char} (hn : n ≠ []) (hd : d ≠ q) (hdot : d ≠ '.')
    (htrim : Text.trim (q :: (doubled q n ++ q :: d :: y)) = q :: (doubled q n ++ q :: d :: y))
    (hnul : '\x00' ∉ q :: (doubled q n ++ q :: d :: y)) : ∃ whole,
    e.quoteIdent (String.ofList (q :: (doubled q n ++ q :: d :: y))) =
      .error (.shape (.ident (.missingDot whole d))) := by
  refine ⟨String.ofList (q :: (doubled q n ++ q :: d :: y)), ?_⟩
  have hhead : (d :: y).head? ≠ some q := by simpa using hd
  have hread := Ident.readSegment_quoted (String.ofList (q :: (doubled q n ++ q :: d :: y))) hq hn
    hhead
  have hdots : Ident.readSegments (String.ofList (q :: (doubled q n ++ q :: d :: y)))
      (q :: (doubled q n ++ q :: d :: y)) =
      .error (.missingDot (String.ofList (q :: (doubled q n ++ q :: d :: y))) d) := by
    rw [Ident.readSegments]
    split <;> simp_all
  rw [quoteIdent_of_trim e htrim (List.cons_ne_nil _ _) hnul, hdots]

end Names

section Segments

variable (e : Engine) (whole : String)

theorem quoteAliased_of_not_marked (htight : Text.Tight cs) (h : ¬Marked cs) :
    quoteAliased e whole cs = e.quoteIdent (String.ofList cs) := by
  have hnone : splitAlias cs = none := by rw [splitAlias, lastMark_eq_none_iff.mpr h]
  rw [quoteAliased, htight.trim, if_neg htight.ne_nil, hnone]

theorem quoteAliased_of_splitAlias (htrim : Text.trim cs = cs) (hne : cs ≠ [])
    (h : splitAlias cs = some (x, y)) :
    quoteAliased e whole cs = (do
      let name ← e.quoteIdent (String.ofList x)
      let aliasName ← e.quoteIdent (String.ofList y)
      return name ++ " AS " ++ aliasName) := by
  rw [quoteAliased, htrim, if_neg hne, h]

theorem quoteAliased_of_lastMark (htight : Text.Tight cs) (h : lastMark cs = some (before, after))
    (hbefore : Text.trim before ≠ []) (hafter : Text.trim after ≠ []) :
    quoteAliased e whole cs = (do
      let name ← e.quoteIdent (String.ofList (Text.trim before))
      let aliasName ← e.quoteIdent (String.ofList (Text.trim after))
      return name ++ " AS " ++ aliasName) := by
  refine quoteAliased_of_splitAlias e whole htight.trim htight.ne_nil ?_
  simp [splitAlias, h, hbefore, hafter]

theorem trim_ne_nil (hd : Text.isBlank d = false) (x y : List Char) :
    Text.trim (x ++ d :: y) ≠ [] := by
  rw [Text.trim_append_cons hd]
  exact List.append_ne_nil_of_right_ne_nil _ (List.cons_ne_nil _ _)

variable {n a : String} (hq : IsQuote q) (hq' : IsQuote q') (hn : (Ident.Part.name n).Valid)
  (ha : (Ident.Part.name a).Valid)

theorem toList_quotedName (q : Char) (n : String) :
    (quotedName q n).toList = q :: (doubled q n.toList ++ [q]) := Ident.toList_name q n

include hq hn

theorem quoteAliased_quotedName (h : ¬Marked n.toList) :
    quoteAliased e whole (quotedName q n).toList = .ok (quotedName e.identQuote n) := by
  have htight : Text.Tight (quotedName q n).toList := Ident.tight_part hq (.name n)
  rw [quoteAliased_of_not_marked e whole htight (by rwa [toList_quotedName, marked_quoted hq]),
    String.ofList_toList, quoteIdent_quotedName hq e hn]

omit hn in
theorem exists_lastMark_quotedName (h : Marked n.toList) : ∃ x y,
    lastMark (quotedName q n).toList = some (q :: doubled q x, doubled q y ++ [q]) ∧
      x ⊆ n.toList := by
  have hmarked : Marked (quotedName q n).toList := by rwa [toList_quotedName, marked_quoted hq]
  obtain ⟨⟨before, after⟩, hlast⟩ := Option.ne_none_iff_exists'.mp fun hnone =>
    lastMark_eq_none_iff.mp hnone hmarked
  obtain ⟨mark, hmark, hcut⟩ := exists_of_lastMark hlast
  rw [toList_quotedName] at hcut
  obtain ⟨x, y, hxy, rfl, rfl⟩ := exists_of_quoted_eq_mark hq hmark hcut
  exact ⟨x, y, hlast, hxy ▸ List.subset_append_left x (mark ++ y)⟩

theorem quoteAliased_quotedName_of_marked (h : Marked n.toList) : ∃ w,
    quoteAliased e whole (quotedName q n).toList =
      .error (.shape (.ident (.unclosedQuote w))) := by
  have hquote := Ident.isBlank_quote hq
  have htight : Text.Tight (quotedName q n).toList := Ident.tight_part hq (.name n)
  obtain ⟨x, y, hlast, hsub⟩ := exists_lastMark_quotedName hq h
  obtain ⟨w, hw⟩ := quoteIdent_open hq e fun hmem => hn.2 (hsub hmem)
  refine ⟨w, ?_⟩
  rw [quoteAliased_of_lastMark e whole htight hlast (trim_ne_nil hquote [] _)
    (trim_ne_nil hquote _ []), hw]
  rfl

include hq' ha

theorem quoteAliased_alias (hmark : IsMark mark) (h : ¬Marked a.toList) :
    quoteAliased e whole ((quotedName q n).toList ++ mark ++ (quotedName q' a).toList) =
      .ok (quotedName e.identQuote n ++ " AS " ++ quotedName e.identQuote a) := by
  have hname : Text.Tight (quotedName q n).toList := Ident.tight_part hq (.name n)
  have halias : Text.Tight (quotedName q' a).toList := Ident.tight_part hq' (.name a)
  have htail : ¬Marked (mark ++ (quotedName q' a).toList).tail := by
    obtain ⟨ms, rfl⟩ := hmark.exists_cons
    have hlength := hmark.length
    rw [List.length_cons] at hlength
    rw [toList_quotedName, List.cons_append, List.tail_cons,
      marked_append_cons (toLower_quote hq'), marked_closed hq', not_or]
    exact ⟨not_marked_of_length (by omega), h⟩
  have hlast := lastMark_append (quotedName q n).toList (lastMark_mark hmark htail)
  rw [List.append_nil, ← List.append_assoc] at hlast
  rw [quoteAliased_of_lastMark e whole (hname.append mark halias) hlast
    (hname.trim.symm ▸ hname.ne_nil) (halias.trim.symm ▸ halias.ne_nil), hname.trim, halias.trim,
    String.ofList_toList, String.ofList_toList, quoteIdent_quotedName hq e hn,
    quoteIdent_quotedName hq' e ha]
  rfl

theorem quoteAliased_alias_of_marked (hmark : IsMark mark) (h : Marked a.toList) : ∃ w,
    quoteAliased e whole ((quotedName q n).toList ++ mark ++ (quotedName q' a).toList) =
      .error (.shape (.ident (.missingDot w ' '))) := by
  have hquote := Ident.isBlank_quote hq
  have hquote' := Ident.isBlank_quote hq'
  have hname : Text.Tight (quotedName q n).toList := Ident.tight_part hq (.name n)
  have halias : Text.Tight (quotedName q' a).toList := Ident.tight_part hq' (.name a)
  have hnul : '\x00' ∉ mark := hmark.notMem (by decide)
  obtain ⟨ms, rfl⟩ := hmark.exists_cons
  obtain ⟨x, y, hlast, hsub⟩ := exists_lastMark_quotedName hq' h
  have hcut := lastMark_append ((quotedName q n).toList ++ ' ' :: ms) hlast
  obtain ⟨b, hb, hsub'⟩ := exists_trimEnd_doubled hq' x
  -- The name is closed already where the mark before the alias begins.
  have htrim : Text.trim ((quotedName q n).toList ++ ' ' :: ms ++ q' :: doubled q' x) =
      q :: (doubled q n.toList ++ q :: ' ' :: (ms ++ q' :: doubled q' b)) := by
    rw [Text.trim_append_cons hquote', hb, toList_quotedName, Text.trimStart, List.cons_append,
      List.dropWhile_cons_of_neg (by simp [hquote])]
    simp
  have hwhole : '\x00' ∉ q :: (doubled q n.toList ++ q :: ' ' :: (ms ++ q' :: doubled q' b)) := by
    have hne (p : Char) (hp : IsQuote p) : '\x00' ≠ p := by rcases hp with rfl | rfl <;> decide
    have hin : '\x00' ∉ b := fun hmem => ha.2 (hsub (hsub' hmem))
    simp only [List.mem_cons, not_or] at hnul
    simp [Ident.mem_doubled, hne q hq, hne q' hq', hn.2, hnul.2, hin]
  have hne : n.toList ≠ [] := fun hnil => hn.1 (String.toList_eq_nil_iff.mp hnil)
  have hspace : ' ' ≠ q := by rcases hq with rfl | rfl <;> decide
  obtain ⟨w, hw⟩ := quoteIdent_run_on hq e hne hspace (by decide) (htrim ▸ Text.trim_trim _) hwhole
  refine ⟨w, ?_⟩
  rw [quoteAliased_of_lastMark e whole (hname.append _ halias) hcut
    (trim_ne_nil hquote' _ _) (trim_ne_nil hquote' _ []), htrim, hw]
  rfl

end Segments

theorem fragments_text (e : Engine) {s : String} (h : Text.Returns ',' .start s.toList) :
    Field.fragments e (.text s) =
      (quoteAliased e s s.toList).map fun text => [.ofText text] := by
  have hone : Text.splitTop ',' s.toList = [s.toList] := Text.splitFrom_of_uncut h.uncut
  rw [fragments, hone, List.mapM_cons]
  cases quoteAliased e s s.toList <;> rfl

theorem fragments_list (e : Engine) (s : String) :
    Field.fragments e (.list [s]) =
      (quoteAliased e s s.toList).map fun text => [.ofText text] := by
  rw [fragments, List.mapM_cons]
  · cases quoteAliased e s s.toList <;> rfl
  · simp

/-- A quoted name is kept with all that its content holds, alone, in a list or before an alias, and
so is a quoted alias. The one exception is ` AS ` inside the last of the quoted names: there the
text is cut, and what stands before the cut is no name. -/
theorem quoted_names_kept_iff (e : Engine) {q q' : Char} (hq : IsQuote q) (hq' : IsQuote q')
    {n a mark : String} (hn : (Ident.Part.name n).Valid) (ha : (Ident.Part.name a).Valid)
    (hmark : IsMark mark.toList) :
    e.quoteIdent (quotedName q n) = .ok (quotedName e.identQuote n) ∧
    e.quoteIdent (quotedName q' a) = .ok (quotedName e.identQuote a) ∧
    (∀ field ∈ [.text (quotedName q n), .list [quotedName q n]],
      (¬Marked n.toList → Field.fragments e field = .ok [.ofText (quotedName e.identQuote n)]) ∧
      (Marked n.toList → ∃ whole,
        Field.fragments e field = .error (.shape (.ident (.unclosedQuote whole))))) ∧
    (¬Marked a.toList →
      Field.fragments e (.text (quotedName q n ++ mark ++ quotedName q' a)) =
        .ok [.ofText (quotedName e.identQuote n ++ " AS " ++ quotedName e.identQuote a)]) ∧
    (Marked a.toList → ∃ whole,
      Field.fragments e (.text (quotedName q n ++ mark ++ quotedName q' a)) =
        .error (.shape (.ident (.missingDot whole ' ')))) := by
  have hname : Text.Returns ',' .start (quotedName q n).toList := Ident.returns_part hq (.name n)
  have halias : Text.Returns ',' .start (quotedName q' a).toList :=
    Ident.returns_part hq' (.name a)
  have hboth : Text.Returns ',' .start (quotedName q n ++ mark ++ quotedName q' a).toList := by
    rw [String.toList_append, String.toList_append]
    exact (hname.append hmark.returns).append halias
  refine ⟨quoteIdent_quotedName hq e hn, quoteIdent_quotedName hq' e ha, ?_, ?_, ?_⟩
  · have halone (field : Field)
        (hfield : field ∈ [.text (quotedName q n), .list [quotedName q n]]) :
        Field.fragments e field =
          (quoteAliased e (quotedName q n) (quotedName q n).toList).map
            fun text => [.ofText text] := by
      simp only [List.mem_cons, List.not_mem_nil, or_false] at hfield
      rcases hfield with rfl | rfl
      · exact fragments_text e hname
      · exact fragments_list e _
    intro field hfield
    rw [halone field hfield]
    constructor
    · intro h
      rw [quoteAliased_quotedName e _ hq hn h]
      rfl
    · intro h
      obtain ⟨w, hw⟩ := quoteAliased_quotedName_of_marked e (quotedName q n) hq hn h
      exact ⟨w, by rw [hw]; rfl⟩
  · intro h
    rw [fragments_text e hboth, String.toList_append, String.toList_append,
      quoteAliased_alias e _ hq hq' hn ha hmark h]
    rfl
  · intro h
    obtain ⟨w, hw⟩ := quoteAliased_alias_of_marked e (quotedName q n ++ mark ++ quotedName q' a)
      hq hq' hn ha hmark h
    refine ⟨w, ?_⟩
    rw [fragments_text e hboth, String.toList_append, String.toList_append, hw]
    rfl

theorem odd_alias_kept :
    Field.fragments .mysql (.text "\"a,b.(\"\"c\" aS \x60x \x60\x60 as\x60") =
      .ok [.ofText "\x60a,b.(\"c\x60 AS \x60x \x60\x60 as\x60"] := by
  have hplain : ¬Marked "x \x60 as".toList := by
    rw [← lastMark_eq_none_iff]
    decide +kernel
  have hkept := @quoted_names_kept_iff .mysql '"' '\x60' (.inl rfl) (.inr rfl) "a,b.(\"c"
    "x \x60 as" " aS " (by decide +kernel) (by decide +kernel) (by decide +kernel)
  have hwritten := hkept.2.2.2.1 hplain
  have hfield : quotedName '"' "a,b.(\"c" ++ " aS " ++ quotedName '\x60' "x \x60 as" =
      "\"a,b.(\"\"c\" aS \x60x \x60\x60 as\x60" := by decide +kernel
  have hsql : quotedName Engine.mysql.identQuote "a,b.(\"c" ++ " AS " ++
      quotedName Engine.mysql.identQuote "x \x60 as" =
      "\x60a,b.(\"c\x60 AS \x60x \x60\x60 as\x60" := by decide +kernel
  rwa [hfield, hsql] at hwritten

theorem quoted_mark_cuts_name :
    (Ident.Part.name "a as b").Valid ∧ quotedName '\x60' "a as b" = "\x60a as b\x60" ∧
    Engine.mysql.quoteIdent "\x60a as b\x60" = .ok "\x60a as b\x60" ∧
    Field.fragments .mysql (.text "\x60a as b\x60") =
      .error (.shape (.ident (.unclosedQuote "\x60a"))) ∧
    Field.fragments .mysql (.list ["\x60a as b\x60"]) =
      .error (.shape (.ident (.unclosedQuote "\x60a"))) ∧
    Engine.postgres.quoteIdent "\"x as y\"" = .ok "\"x as y\"" ∧
    Field.fragments .postgres (.text "\"id\" AS \"x as y\"") =
      .error (.shape (.ident (.missingDot "\"id\" AS \"x" ' '))) := by
  have hname (whole : String) : quoteAliased .mysql whole "\x60a as b\x60".toList =
      .error (.shape (.ident (.unclosedQuote "\x60a"))) := by
    have hfault : Ident.parse "\x60a" = .error (.unclosedQuote "\x60a") := by decide +kernel
    rw [quoteAliased_of_splitAlias .mysql whole (x := "\x60a".toList) (y := "b\x60".toList)
      (by decide +kernel) (by decide) (by decide +kernel), String.ofList_toList, Engine.quoteIdent,
      hfault]
    rfl
  have halias (whole : String) : quoteAliased .postgres whole "\"id\" AS \"x as y\"".toList =
      .error (.shape (.ident (.missingDot "\"id\" AS \"x" ' '))) := by
    have hfault : Ident.parse "\"id\" AS \"x" = .error (.missingDot "\"id\" AS \"x" ' ') := by
      decide +kernel
    rw [quoteAliased_of_splitAlias .postgres whole (x := "\"id\" AS \"x".toList)
      (y := "y\"".toList) (by decide +kernel) (by decide) (by decide +kernel),
      String.ofList_toList, Engine.quoteIdent, hfault]
    rfl
  refine ⟨by decide, by decide +kernel, Outcome.eq_ok_of_toOption (by decide +kernel), ?_, ?_,
    Outcome.eq_ok_of_toOption (by decide +kernel), ?_⟩
  · rw [fragments_text _ (by decide +kernel), hname]
    rfl
  · rw [fragments_list, hname]
    rfl
  · rw [fragments_text _ (by decide +kernel), halias]
    rfl

end SqlBuilder.Field
