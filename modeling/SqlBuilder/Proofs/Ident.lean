import Mathlib.Control.Monad.Basic
import SqlBuilder.Literal
import SqlBuilder.Proofs.Text

/-!
# Identifiers and how they are written

Quoting writes every identifier that a text can spell, and reading what was written gives the
identifier back. So two names are one column exactly when they are written alike, and
a written list of columns is cut back into these columns.
-/
namespace SqlBuilder.Ident

/-- The characters that a segment may be quoted with. -/
def IsQuote (q : Char) : Prop := q = '"' ∨ q = '\x60'

instance : DecidablePred IsQuote := fun _ => inferInstanceAs (Decidable (_ ∨ _))

theorem isQuote_identQuote (e : Engine) : IsQuote e.identQuote := by cases e <;> decide

def Part.Valid : Part → Prop
  | .name text => text ≠ "" ∧ '\x00' ∉ text.toList
  | .wildcard => True

instance : DecidablePred Part.Valid
  | .name _ => inferInstanceAs (Decidable (_ ∧ _))
  | .wildcard => .isTrue trivial

/-- There is some part, no name is empty or holds a NUL, and a wildcard comes last. -/
structure WellFormed (i : Ident) : Prop where
  nonempty : i.parts ≠ []
  valid : ∀ p ∈ i.parts, p.Valid
  wildcardLast : Part.wildcard ∉ i.parts.dropLast

theorem toList_toSql (q : Char) (i : Ident) :
    (i.toSql q).toList = ['.'].intercalate (i.parts.map fun p => (p.toSql q).toList) := by
  rw [toSql, String.toList_intercalate, List.map_map]
  rfl

theorem toList_name (q : Char) (text : String) :
    ((Part.name text).toSql q).toList = q :: (doubled q text.toList ++ [q]) := by
  rw [Part.toSql, quotedName, String.toList_ofList, List.cons_append]

theorem toList_wildcard (q : Char) : (Part.wildcard.toSql q).toList = ['*'] := by
  rw [Part.toSql]
  rfl

theorem mem_doubled {q c : Char} {cs : List Char} : c ∈ doubled q cs ↔ c ∈ cs := by
  constructor
  · intro h
    obtain ⟨d, hd, hmem⟩ := List.mem_flatMap.mp h
    have heq : c = d := by split at hmem <;> simpa using hmem
    rwa [heq]
  · intro h
    refine List.mem_flatMap.mpr ⟨c, h, ?_⟩
    split <;> exact List.mem_cons_self

theorem readQuoted_doubled (q : Char) (cs : List Char) {rest : List Char}
    (h : rest.head? ≠ some q) : readQuoted q (doubled q cs ++ q :: rest) = some (cs, rest) := by
  induction cs with
  | nil =>
    cases rest with
    | nil => simp [doubled, readQuoted]
    | cons d ds =>
      have hd : d ≠ q := fun hd => h (congrArg some hd)
      simp [doubled, readQuoted, hd]
  | cons c cs ih =>
    rw [doubled, List.flatMap_cons, ← doubled, List.append_assoc]
    by_cases hc : c = q
    · subst hc
      simp [readQuoted, ih]
    · rw [if_neg hc, List.singleton_append, readQuoted.eq_def]
      simp [hc, ih]

/-- What may stand behind a segment. -/
def Ends (rest : List Char) : Prop := rest = [] ∨ ∃ ds, rest = '.' :: ds

theorem Ends.head?_ne {rest : List Char} (h : Ends rest) {q : Char} (hq : IsQuote q) :
    rest.head? ≠ some q := by
  rcases h with rfl | ⟨ds, rfl⟩ <;> rcases hq with rfl | rfl <;> simp

theorem readSegment_quoted (whole : String) {q : Char} (hq : IsQuote q) {name : List Char}
    (hname : name ≠ []) {rest : List Char} (hrest : rest.head? ≠ some q) :
    readSegment whole (q :: (doubled q name ++ q :: rest)) =
      .ok (.name (String.ofList name), rest) := by
  have hread : readName whole q (doubled q name ++ q :: rest) =
      .ok (.name (String.ofList name), rest) := by
    rw [readName, readQuoted_doubled q name hrest]
    split
    · rename_i hnone
      cases hnone
    · rename_i hnil
      exact absurd (congrArg Prod.fst (Option.some.inj hnil)) hname
    · rename_i hsome
      cases hsome
      rfl
  rcases hq with rfl | rfl <;> exact hread

theorem readSegment_toSql (whole : String) {q : Char} (hq : IsQuote q) {p : Part}
    (hp : p.Valid) {rest : List Char} (hrest : Ends rest) :
    readSegment whole ((p.toSql q).toList ++ rest) = .ok (p, rest) := by
  cases p with
  | wildcard =>
    have htrim : Text.trim ['*'] = ['*'] := by decide
    rw [toList_wildcard]
    rcases hrest with rfl | ⟨ds, rfl⟩ <;> simp [readSegment, readUnquoted, htrim]
  | name text =>
    have hne : text.toList ≠ [] := fun hnil => hp.1 (String.toList_eq_nil_iff.mp hnil)
    rw [toList_name, List.cons_append, List.append_assoc, List.singleton_append,
      readSegment_quoted whole hq hne (hrest.head?_ne hq), String.ofList_toList]

theorem readSegments_last {whole : String} {cs : List Char} {p : Part}
    (h : readSegment whole cs = .ok (p, [])) : readSegments whole cs = .ok [p] := by
  rw [readSegments]
  split <;> simp_all

theorem readSegments_more {whole : String} {cs rest : List Char} {p : Part}
    (h : readSegment whole cs = .ok (p, '.' :: rest)) (hrest : rest ≠ []) (hp : p ≠ .wildcard) :
    readSegments whole cs = (readSegments whole rest).map (p :: ·) := by
  rw [readSegments]
  split <;> simp_all

section Written

variable {q : Char} (hq : IsQuote q)
include hq

theorem isBlank_quote : Text.isBlank q = false := by rcases hq with rfl | rfl <;> decide

theorem tight_part (p : Part) : Text.Tight (p.toSql q).toList := by
  cases p with
  | wildcard =>
    rw [toList_wildcard]
    exact ⟨⟨'*', [], rfl, by decide⟩, ⟨'*', [], rfl, by decide⟩⟩
  | name text =>
    rw [toList_name]
    exact ⟨⟨q, _, rfl, isBlank_quote hq⟩, ⟨q, q :: _, rfl, isBlank_quote hq⟩⟩

theorem tight_toSql {i : Ident} (h : i.parts ≠ []) : Text.Tight (i.toSql q).toList := by
  rw [toList_toSql]
  refine Text.intercalate_of_append (fun a b ha hb => ha.append ['.'] hb) (by simpa using h) ?_
  intro t ht
  obtain ⟨p, -, rfl⟩ := List.mem_map.mp ht
  exact tight_part hq p

/-- Between its quotes a name holds no separator, for a doubled quote closes and reopens. -/
theorem returns_doubled (cs : List Char) : Text.Returns ',' ⟨some q, 0⟩ (doubled q cs) := by
  refine Text.Returns.flatMap fun c _ => ?_
  by_cases hc : c = q
  · rw [if_pos hc, hc]
    rcases hq with rfl | rfl <;> exact ⟨⟨rfl, rfl, trivial⟩, rfl⟩
  · rw [if_neg hc]
    exact ⟨⟨rfl, trivial⟩, if_neg hc⟩

theorem returns_part (p : Part) : Text.Returns ',' .start (p.toSql q).toList := by
  cases p with
  | wildcard =>
    rw [toList_wildcard]
    exact ⟨⟨rfl, trivial⟩, rfl⟩
  | name text =>
    have hbody := returns_doubled hq text.toList
    have hopen : Text.Scan.start.next q = ⟨some q, 0⟩ := by rcases hq with rfl | rfl <;> rfl
    have hclose : Text.Scan.next ⟨some q, 0⟩ q = .start := if_pos rfl
    have hcomma : (Text.Scan.start.atTop && q = ',') = false := by
      rcases hq with rfl | rfl <;> rfl
    rw [toList_name]
    constructor
    · rw [Text.Uncut, hopen, Text.uncut_append, hbody.after]
      exact ⟨hcomma, hbody.uncut, rfl, trivial⟩
    · rw [Text.Scan.after, List.foldl_cons, hopen, ← Text.Scan.after, Text.Scan.after_append,
        hbody.after]
      exact hclose

theorem returns_toSql {i : Ident} (h : i.parts ≠ []) :
    Text.Returns ',' .start (i.toSql q).toList := by
  have hdot : Text.Returns ',' .start ['.'] := ⟨⟨rfl, trivial⟩, rfl⟩
  rw [toList_toSql]
  refine Text.intercalate_of_append (fun a b ha hb => (ha.append hdot).append hb)
    (by simpa using h) ?_
  intro t ht
  obtain ⟨p, -, rfl⟩ := List.mem_map.mp ht
  exact returns_part hq p

theorem nul_not_mem_part {p : Part} (hp : p.Valid) : '\x00' ∉ (p.toSql q).toList := by
  cases p with
  | wildcard =>
    rw [toList_wildcard]
    decide
  | name text =>
    have hquote : '\x00' ≠ q := by rcases hq with rfl | rfl <;> decide
    rw [toList_name]
    simp [mem_doubled, hquote, hp.2]

theorem nul_not_mem_toSql {i : Ident} (h : i.WellFormed) : '\x00' ∉ (i.toSql q).toList := by
  rw [toList_toSql]
  refine Text.intercalate_of_append (P := fun t => '\x00' ∉ t) ?_ (by simpa using h.nonempty) ?_
  · intro a b ha hb
    simp [ha, hb]
  · intro t ht
    obtain ⟨p, hp, rfl⟩ := List.mem_map.mp ht
    exact nul_not_mem_part hq (h.valid p hp)

theorem readSegments_toSql (whole : String) {parts : List Part} (hne : parts ≠ [])
    (hvalid : ∀ p ∈ parts, p.Valid) (hlast : Part.wildcard ∉ parts.dropLast) :
    readSegments whole (['.'].intercalate (parts.map fun p => (p.toSql q).toList)) =
      .ok parts := by
  induction parts with
  | nil => exact absurd rfl hne
  | cons p parts ih =>
    rw [List.forall_mem_cons] at hvalid
    cases parts with
    | nil =>
      have hread := readSegment_toSql whole hq hvalid.1 (.inl rfl)
      rw [List.append_nil] at hread
      rw [List.map_singleton, List.intercalate_singleton]
      exact readSegments_last hread
    | cons p' ps =>
      rw [List.dropLast_cons_of_ne_nil (List.cons_ne_nil p' ps), List.mem_cons, not_or] at hlast
      have hrest := ih (List.cons_ne_nil p' ps) hvalid.2 hlast.2
      have hmore : ['.'].intercalate ((p' :: ps).map fun p => (p.toSql q).toList) ≠ [] := by
        have htight := tight_toSql hq (i := ⟨p' :: ps⟩) (List.cons_ne_nil p' ps)
        rw [toList_toSql] at htight
        exact htight.ne_nil
      have hread (rest : List Char) := readSegment_toSql whole hq hvalid.1 (.inr ⟨rest, rfl⟩)
      rw [List.map_cons] at hrest hmore
      rw [List.map_cons, List.map_cons, List.intercalate_cons_cons, List.append_assoc,
        List.singleton_append, readSegments_more (hread _) hmore (Ne.symm hlast.1), hrest]
      rfl

/-- Every well-formed identifier is read back from its written form. -/
theorem parse_toSql {i : Ident} (h : i.WellFormed) : parse (i.toSql q) = .ok i := by
  have htight := tight_toSql hq h.nonempty
  have htrimmed : Text.trimmed (i.toSql q) = i.toSql q := by
    rw [Text.trimmed, htight.trim, String.ofList_toList]
  have hne : i.toSql q ≠ "" := by
    intro hempty
    exact htight.ne_nil (by rw [hempty]; rfl)
  have hread := readSegments_toSql hq (i.toSql q) h.nonempty h.valid h.wildcardLast
  rw [← toList_toSql] at hread
  unfold parse
  rw [htrimmed]
  dsimp only
  rw [if_neg hne, if_neg (nul_not_mem_toSql hq h), hread]
  rfl

end Written

/-- A quoted segment is read only from what is written for its content. -/
theorem eq_doubled_of_readQuoted {q : Char} {cs name rest : List Char}
    (h : readQuoted q cs = some (name, rest)) : cs = doubled q name ++ q :: rest := by
  fun_induction readQuoted q cs generalizing name rest with
  | case1 => cases h
  | case2 =>
    cases h
    rfl
  | case3 ds ih =>
    obtain ⟨⟨n, r⟩, hread, heq⟩ := Option.map_eq_some_iff.mp h
    cases heq
    rw [ih hread]
    simp [doubled]
  | case4 =>
    cases h
    rfl
  | case5 c cs hc ih =>
    obtain ⟨⟨n, r⟩, hread, heq⟩ := Option.map_eq_some_iff.mp h
    cases heq
    rw [ih hread]
    simp [doubled, hc]

theorem valid_of_readName {whole : String} {q : Char} {cs rest : List Char} {p : Part}
    (h : readName whole q cs = .ok (p, rest)) (hnul : '\x00' ∉ cs) :
    p.Valid ∧ '\x00' ∉ rest := by
  unfold readName at h
  split at h
  · cases h
  · cases h
  · rename_i name rest' hne hread
    cases h
    rw [eq_doubled_of_readQuoted hread, List.mem_append, List.mem_cons, not_or, not_or] at hnul
    refine ⟨⟨?_, ?_⟩, hnul.2.2⟩
    · intro hempty
      exact hne (String.ofList_eq_empty_iff.mp hempty)
    · rw [String.toList_ofList]
      exact fun hmem => hnul.1 (mem_doubled.mpr hmem)

theorem valid_of_readUnquoted {whole : String} {cs rest : List Char} {p : Part}
    (h : readUnquoted whole cs = .ok (p, rest)) (hnul : '\x00' ∉ cs) :
    p.Valid ∧ '\x00' ∉ rest := by
  have hrest : '\x00' ∉ cs.dropWhile (· ≠ '.') := fun hmem =>
    hnul ((List.dropWhile_sublist _).subset hmem)
  simp only [readUnquoted] at h
  split at h
  · cases h
  rename_i hne
  split at h
  · cases h
    exact ⟨trivial, hrest⟩
  · cases h
    refine ⟨⟨?_, ?_⟩, hrest⟩
    · intro hempty
      exact hne (String.ofList_eq_empty_iff.mp hempty)
    · rw [String.toList_ofList]
      exact fun hmem => hnul ((List.takeWhile_sublist _).subset (Text.mem_of_mem_trim hmem))

theorem valid_of_readSegment {whole : String} {cs rest : List Char} {p : Part}
    (h : readSegment whole cs = .ok (p, rest)) (hnul : '\x00' ∉ cs) :
    p.Valid ∧ '\x00' ∉ rest := by
  unfold readSegment at h
  split at h
  · exact valid_of_readName h fun hmem => hnul (List.mem_cons_of_mem _ hmem)
  · exact valid_of_readName h fun hmem => hnul (List.mem_cons_of_mem _ hmem)
  · exact valid_of_readUnquoted h hnul

theorem wellFormed_of_readSegments {whole : String} {cs : List Char} {parts : List Part}
    (h : readSegments whole cs = .ok parts) (hnul : '\x00' ∉ cs) : WellFormed ⟨parts⟩ := by
  fun_induction readSegments whole cs generalizing parts with
  | case1 | case3 | case4 | case5 => cases h
  | case2 cs p hread =>
    cases h
    have hvalid := (valid_of_readSegment hread hnul).1
    exact ⟨List.cons_ne_nil p [], by simpa using hvalid, List.not_mem_nil⟩
  | case6 cs p c rest hread _ _ hp ih =>
    obtain ⟨hvalid, hrest⟩ := valid_of_readSegment hread hnul
    cases hparts : readSegments whole rest with
    | error fault =>
      rw [hparts] at h
      cases h
    | ok ps =>
      rw [hparts] at h
      cases h
      have hps := ih hparts fun hmem => hrest (List.mem_cons_of_mem _ hmem)
      refine ⟨List.cons_ne_nil p ps, List.forall_mem_cons.mpr ⟨hvalid, hps.valid⟩, ?_⟩
      show Part.wildcard ∉ (p :: ps).dropLast
      rw [List.dropLast_cons_of_ne_nil hps.nonempty, List.mem_cons, not_or]
      exact ⟨Ne.symm hp, hps.wildcardLast⟩

theorem wellFormed_of_parse {text : String} {i : Ident} (h : parse text = .ok i) :
    i.WellFormed := by
  unfold parse at h
  dsimp only at h
  split at h
  · cases h
  split at h
  · cases h
  rename_i hnul
  cases hparts : readSegments (Text.trimmed text) (Text.trimmed text).toList with
  | error fault =>
    rw [hparts] at h
    cases h
  | ok parts =>
    rw [hparts] at h
    cases h
    exact wellFormed_of_readSegments hparts hnul

theorem exists_of_quoteIdent {e : Engine} {name sql : String} (h : e.quoteIdent name = .ok sql) :
    ∃ i, parse name = .ok i ∧ sql = i.toSql e.identQuote := by
  unfold Engine.quoteIdent at h
  split at h
  · rename_i i hparse
    cases h
    exact ⟨i, hparse, rfl⟩
  · cases h

theorem splitTop_commaJoined {e : Engine} {sqls : List String} (hne : sqls ≠ [])
    (h : ∀ sql ∈ sqls, ∃ name, e.quoteIdent name = .ok sql) :
    (Text.splitTop ',' (Engine.commaJoined sqls).toList).map
      (fun cs => String.ofList (Text.trim cs)) = sqls := by
  have hwritten : ∀ sql ∈ sqls, Text.Returns ',' .start sql.toList ∧ Text.Tight sql.toList := by
    intro sql hsql
    obtain ⟨name, hname⟩ := h sql hsql
    obtain ⟨i, hparse, rfl⟩ := exists_of_quoteIdent hname
    have hparts := (wellFormed_of_parse hparse).nonempty
    exact ⟨returns_toSql (isQuote_identQuote e) hparts, tight_toSql (isQuote_identQuote e) hparts⟩
  have hsplit : (Text.splitTop ',' (Engine.commaJoined sqls).toList).map Text.trim =
      (sqls.map String.toList).map Text.trim := by
    rw [Engine.commaJoined, String.toList_intercalate]
    refine Text.splitTop_commas (by simpa using hne) ?_
    intro t ht
    obtain ⟨sql, hsql, rfl⟩ := List.mem_map.mp ht
    exact (hwritten sql hsql).1
  have hread : (sqls.map fun sql => String.ofList (Text.trim sql.toList)) = sqls := by
    refine (List.map_congr_left fun sql hsql => ?_).trans (List.map_id sqls)
    rw [(hwritten sql hsql).2.trim, String.ofList_toList, id]
  calc (Text.splitTop ',' (Engine.commaJoined sqls).toList).map
        (fun cs => String.ofList (Text.trim cs))
      = ((Text.splitTop ',' (Engine.commaJoined sqls).toList).map Text.trim).map
        String.ofList := by rw [List.map_map]; rfl
    _ = sqls.map fun sql => String.ofList (Text.trim sql.toList) := by
        rw [hsplit, List.map_map, List.map_map]; rfl
    _ = sqls := hread

theorem commaJoined_inj {e : Engine} {sqls sqls' : List String} (hne : sqls ≠ [])
    (h : ∀ sql ∈ sqls, ∃ name, e.quoteIdent name = .ok sql) (hne' : sqls' ≠ [])
    (h' : ∀ sql ∈ sqls', ∃ name, e.quoteIdent name = .ok sql)
    (heq : Engine.commaJoined sqls = Engine.commaJoined sqls') : sqls = sqls' := by
  rw [← splitTop_commaJoined hne h, heq, splitTop_commaJoined hne' h']

/-- The identifiers that texts spell are the well-formed ones. With either quote character such
an identifier is written as a text that spells it again. So quoting a quoted name anew changes
its quotes at most, and two names are written alike exactly when their parts are the same. -/
theorem quoting_reads_back :
    (∀ i : Ident, (∃ text, parse text = .ok i) ↔ i.WellFormed) ∧
    (∀ text i, parse text = .ok i → ∀ q, IsQuote q → parse (i.toSql q) = .ok i) ∧
    (∀ (e e' : Engine) name sql, e.quoteIdent name = .ok sql →
      ∃ i, parse name = .ok i ∧ sql = i.toSql e.identQuote ∧
        e'.quoteIdent sql = .ok (i.toSql e'.identQuote)) ∧
    ∀ text text' i j, parse text = .ok i → parse text' = .ok j →
      ∀ q, IsQuote q → (i.toSql q = j.toSql q ↔ i.parts = j.parts) := by
  refine ⟨fun i => ⟨?_, ?_⟩, ?_, ?_, ?_⟩
  · rintro ⟨text, h⟩
    exact wellFormed_of_parse h
  · intro h
    exact ⟨i.toSql '"', parse_toSql (.inl rfl) h⟩
  · intro text i h q hq
    exact parse_toSql hq (wellFormed_of_parse h)
  · intro e e' name sql h
    obtain ⟨i, hparse, rfl⟩ := exists_of_quoteIdent h
    have hagain := parse_toSql (isQuote_identQuote e) (wellFormed_of_parse hparse)
    refine ⟨i, hparse, rfl, ?_⟩
    rw [Engine.quoteIdent, hagain]
  · intro text text' i j hi hj q hq
    constructor
    · intro heq
      have hread := parse_toSql hq (wellFormed_of_parse hi)
      rw [heq, parse_toSql hq (wellFormed_of_parse hj)] at hread
      cases hread
      rfl
    · intro heq
      cases i
      cases j
      cases heq
      rfl

def oddNames : Ident := ⟨[.name "odd.na\"me", .name "we\x60ird", .wildcard]⟩

def plainNames : Ident := ⟨[.name "odd", .name "na\"me", .name "we\x60ird", .wildcard]⟩

theorem oddNames_read_back :
    parse " \"odd.na\"\"me\".we\x60ird. *" = .ok oddNames ∧
    parse (oddNames.toSql '\x60') = .ok oddNames ∧
    Engine.mysql.quoteIdent "\"odd.na\"\"me\".\"we\x60ird\".*" =
      .ok "\x60odd.na\"me\x60.\x60we\x60\x60ird\x60.*" ∧
    parse "odd.na\"me.we\x60ird.*" = .ok plainNames ∧
    plainNames.toSql '"' ≠ oddNames.toSql '"' := by
  have hodd : parse " \"odd.na\"\"me\".we\x60ird. *" = .ok oddNames := by decide +kernel
  have hplain : parse "odd.na\"me.we\x60ird.*" = .ok plainNames := by decide +kernel
  have hquote : Engine.postgres.quoteIdent " \"odd.na\"\"me\".we\x60ird. *" =
      .ok "\"odd.na\"\"me\".\"we\x60ird\".*" := by
    rw [Engine.quoteIdent, hodd]
    exact congrArg Except.ok (by decide +kernel)
  obtain ⟨-, hread, hagain, halike⟩ := quoting_reads_back
  obtain ⟨i, hi, -, hsql⟩ := hagain .postgres .mysql _ _ hquote
  rw [hodd] at hi
  cases hi
  refine ⟨hodd, hread _ _ hodd _ (by decide), ?_, hplain, ?_⟩
  · rw [hsql]
    exact congrArg Except.ok (by decide +kernel)
  · rw [Ne, halike _ _ _ _ hplain hodd _ (by decide)]
    decide

end SqlBuilder.Ident
