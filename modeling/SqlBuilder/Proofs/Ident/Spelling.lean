import SqlBuilder.Proofs.Ident

/-!
# How an identifier is spelled

A text spells an identifier when single dots cut it into segments, each of them quoted or bare.
Exactly these texts can be parsed, and no text is cut in two ways: what a segment leaves behind
begins with a dot, so it is found again by reading the segment.
-/
namespace SqlBuilder.Ident

/-- One segment of a spelling, with the content of a quoted one undoubled. -/
inductive Segment where
  | quoted (quote : Char) (content : List Char)
  | bare (text : List Char)
  deriving DecidableEq, Repr

namespace Segment

def text : Segment → List Char
  | .quoted q content => q :: (doubled q content ++ [q])
  | .bare text => text

def part : Segment → Part
  | .quoted _ content => .name (String.ofList content)
  | .bare text =>
    if Text.trim text = ['*'] then .wildcard else .name (String.ofList (Text.trim text))

/-- A quoted segment holds something. A bare one shows something, does not begin like a quoted
one and holds no dot. -/
def Valid : Segment → Prop
  | .quoted q content => IsQuote q ∧ content ≠ []
  | .bare text => (∀ c ∈ text.head?, ¬IsQuote c) ∧ '.' ∉ text ∧ Text.allBlank text = false

instance : DecidablePred Valid
  | .quoted _ _ => inferInstanceAs (Decidable (_ ∧ _))
  -- Only the head is looked at: a search through all characters would not end.
  | .bare text => @instDecidableAnd _ _ (Option.decidableForallMem text.head?) inferInstance

end Segment

/-- The text is these segments, one or more, with single dots between them. -/
structure Cut (segments : List Segment) (cs : List Char) : Prop where
  nonempty : segments ≠ []
  valid : ∀ s ∈ segments, s.Valid
  text : ['.'].intercalate (segments.map Segment.text) = cs

variable {s s' : Segment} {segments segments' : List Segment} {cs rest rest' : List Char}
  {whole : String}

theorem readUnquoted_append {text : List Char} (hdot : '.' ∉ text)
    (hblank : Text.allBlank text = false) (hrest : Ends rest) :
    readUnquoted whole (text ++ rest) = .ok ((Segment.bare text).part, rest) := by
  have hall : ∀ c ∈ text, decide (c ≠ '.') = true := by
    intro c hc
    exact decide_eq_true (ne_of_mem_of_not_mem hc hdot)
  have htake : (text ++ rest).takeWhile (· ≠ '.') = text := by
    rw [List.takeWhile_append_of_pos hall]
    rcases hrest with rfl | ⟨ds, rfl⟩ <;> simp
  have hdrop : (text ++ rest).dropWhile (· ≠ '.') = rest := by
    rw [List.dropWhile_append_of_pos hall]
    rcases hrest with rfl | ⟨ds, rfl⟩ <;> simp
  have hne : Text.trim text ≠ [] := fun hnil => by
    rw [Text.trim_eq_nil.mp hnil] at hblank
    cases hblank
  simp only [readUnquoted, htake, hdrop, if_neg hne, Segment.part]
  split <;> rfl

theorem readSegment_append (whole : String) (hs : s.Valid) (hrest : Ends rest) :
    readSegment whole (s.text ++ rest) = .ok (s.part, rest) := by
  cases s with
  | quoted q content =>
    rw [Segment.text, List.cons_append, List.append_assoc, List.singleton_append]
    exact readSegment_quoted whole hs.1 hs.2 (hrest.head?_ne hs.1)
  | bare text =>
    obtain ⟨hhead, hdot, hblank⟩ := hs
    rw [Segment.text]
    cases text with
    | nil => cases hblank
    | cons c text =>
      have hc : ¬IsQuote c := hhead c rfl
      unfold readSegment
      split
      · rename_i heq
        exact absurd (.inl (List.cons.inj heq).1) hc
      · rename_i heq
        exact absurd (.inr (List.cons.inj heq).1) hc
      · exact readUnquoted_append hdot hblank hrest

theorem exists_of_readName {q : Char} (hq : IsQuote q) {p : Part}
    (h : readName whole q cs = .ok (p, rest)) :
    ∃ s : Segment, s.Valid ∧ s.part = p ∧ q :: cs = s.text ++ rest := by
  unfold readName at h
  split at h
  · cases h
  · cases h
  · rename_i name rest' hne hread
    cases h
    refine ⟨.quoted q name, ⟨hq, fun hnil => hne hnil⟩, rfl, ?_⟩
    rw [eq_doubled_of_readQuoted hread, Segment.text]
    simp

theorem exists_of_readUnquoted {p : Part} (hhead : ∀ c ∈ cs.head?, ¬IsQuote c)
    (h : readUnquoted whole cs = .ok (p, rest)) :
    ∃ s : Segment, s.Valid ∧ s.part = p ∧ cs = s.text ++ rest := by
  have hcs : cs = cs.takeWhile (· ≠ '.') ++ cs.dropWhile (· ≠ '.') :=
    (List.takeWhile_append_dropWhile).symm
  have hdot : '.' ∉ cs.takeWhile (· ≠ '.') := by
    intro hmem
    simpa using List.mem_takeWhile_imp hmem
  simp only [readUnquoted] at h
  split at h
  · cases h
  rename_i hne
  have hblank : Text.allBlank (cs.takeWhile (· ≠ '.')) = false := by
    rw [Bool.eq_false_iff]
    exact fun hall => hne (Text.trim_eq_nil.mpr hall)
  have hvalid : (Segment.bare (cs.takeWhile (· ≠ '.'))).Valid := by
    refine ⟨fun c hc => hhead c ?_, hdot, hblank⟩
    rw [hcs, List.head?_append, hc]
    rfl
  refine ⟨.bare (cs.takeWhile (· ≠ '.')), hvalid, ?_⟩
  rw [Segment.part, Segment.text]
  split at h
  · rename_i hstar
    cases h
    exact ⟨if_pos hstar, hcs⟩
  · rename_i hstar
    cases h
    exact ⟨if_neg hstar, hcs⟩

theorem exists_of_readSegment {p : Part} (h : readSegment whole cs = .ok (p, rest)) :
    ∃ s : Segment, s.Valid ∧ s.part = p ∧ cs = s.text ++ rest := by
  unfold readSegment at h
  split at h
  · exact exists_of_readName (.inl rfl) h
  · exact exists_of_readName (.inr rfl) h
  · rename_i hdouble hback
    refine exists_of_readUnquoted (fun c hc hq => ?_) h
    obtain ⟨ds, rfl⟩ := List.head?_eq_some_iff.mp hc
    rcases hq with rfl | rfl
    · exact hdouble ds rfl
    · exact hback ds rfl

theorem eq_of_text (hs : s.Valid) (hs' : s'.Valid) (h : s.text = s'.text) : s = s' := by
  cases s with
  | quoted q content =>
    cases s' with
    | quoted q' content' =>
      obtain ⟨rfl, hbody⟩ := List.cons.inj h
      have hread (cs : List Char) : readQuoted q (doubled q cs ++ [q]) = some (cs, []) :=
        readQuoted_doubled q cs (by simp)
      have hsame := (hread content).symm.trans
        ((congrArg (readQuoted q) hbody).trans (hread content'))
      cases hsame
      rfl
    | bare text =>
      refine absurd hs.1 (hs'.1 q ?_)
      rw [← show q :: (doubled q content ++ [q]) = text from h]
      rfl
  | bare text =>
    cases s' with
    | quoted q' content' =>
      refine absurd hs'.1 (hs.1 q' ?_)
      rw [show text = q' :: (doubled q' content' ++ [q']) from h]
      rfl
    | bare text' => exact congrArg Segment.bare h

/-- The end of a segment can be told from what stands behind it. -/
theorem eq_of_text_append (hs : s.Valid) (hs' : s'.Valid) (hrest : Ends rest)
    (hrest' : Ends rest') (h : s.text ++ rest = s'.text ++ rest') : s = s' ∧ rest = rest' := by
  have hread := readSegment_append "" hs hrest
  rw [h, readSegment_append "" hs' hrest'] at hread
  obtain rfl : rest' = rest := congrArg Prod.snd (Except.ok.inj hread)
  exact ⟨eq_of_text hs hs' (List.append_cancel_right h), rfl⟩

def continued (segments : List Segment) : List Char :=
  segments.flatMap fun s => '.' :: s.text

theorem continued_cons (s : Segment) (segments : List Segment) :
    continued (s :: segments) = '.' :: (s.text ++ continued segments) := rfl

theorem intercalate_dots (s : Segment) (segments : List Segment) :
    ['.'].intercalate ((s :: segments).map Segment.text) = s.text ++ continued segments := by
  induction segments generalizing s with
  | nil => simp [continued]
  | cons s' segments ih =>
    rw [List.map_cons, List.map_cons, List.intercalate_cons_cons, ← List.map_cons, ih,
      List.append_assoc]
    rfl

theorem ends_continued (segments : List Segment) : Ends (continued segments) := by
  cases segments with
  | nil => exact .inl rfl
  | cons s segments => exact .inr ⟨_, rfl⟩

theorem continued_injective (hvalid : ∀ s ∈ segments, s.Valid) (hvalid' : ∀ s ∈ segments', s.Valid)
    (h : continued segments = continued segments') : segments = segments' := by
  induction segments generalizing segments' with
  | nil =>
    cases segments' with
    | nil => rfl
    | cons s' segments' => cases h
  | cons s segments ih =>
    cases segments' with
    | nil => cases h
    | cons s' segments' =>
      rw [List.forall_mem_cons] at hvalid hvalid'
      obtain ⟨rfl, hrest⟩ := eq_of_text_append hvalid.1 hvalid'.1 (ends_continued segments)
        (ends_continued segments') (List.cons.inj h).2
      rw [ih hvalid.2 hvalid'.2 hrest]

theorem Cut.unique (h : Cut segments cs) (h' : Cut segments' cs) : segments = segments' := by
  have htext := h.text.trans h'.text.symm
  obtain ⟨s, segments, rfl⟩ := List.exists_cons_of_ne_nil h.nonempty
  obtain ⟨s', segments', rfl⟩ := List.exists_cons_of_ne_nil h'.nonempty
  rw [intercalate_dots, intercalate_dots] at htext
  have hcontinued : continued (s :: segments) = continued (s' :: segments') :=
    congrArg (List.cons '.') htext
  exact continued_injective h.valid h'.valid hcontinued

theorem Cut.readSegments (h : Cut segments cs)
    (hlast : Part.wildcard ∉ segments.dropLast.map Segment.part) :
    readSegments whole cs = .ok (segments.map Segment.part) := by
  induction segments generalizing cs with
  | nil => exact absurd rfl h.nonempty
  | cons s segments ih =>
    have hvalid := h.valid
    rw [List.forall_mem_cons] at hvalid
    have hread := readSegment_append whole hvalid.1 (ends_continued segments)
    rw [← intercalate_dots, h.text] at hread
    cases segments with
    | nil => exact readSegments_last hread
    | cons s' segments =>
      rw [List.dropLast_cons_of_ne_nil (List.cons_ne_nil s' segments), List.map_cons,
        List.mem_cons, not_or] at hlast
      have hcut : Cut (s' :: segments) (s'.text ++ continued segments) :=
        ⟨List.cons_ne_nil s' segments, hvalid.2, intercalate_dots s' segments⟩
      have hmore : s'.text ++ continued segments ≠ [] := by
        have hs' := hvalid.2 s' List.mem_cons_self
        cases s' with
        | quoted q content => simp [Segment.text]
        | bare text =>
          cases text with
          | nil => cases hs'.2.2
          | cons c text => simp [Segment.text]
      rw [continued_cons] at hread
      rw [readSegments_more hread hmore (Ne.symm hlast.1), ih hcut hlast.2]
      rfl

theorem exists_cut_of_readSegments {parts : List Part} (h : readSegments whole cs = .ok parts) :
    ∃ segments, Cut segments cs ∧ Part.wildcard ∉ segments.dropLast.map Segment.part ∧
      parts = segments.map Segment.part := by
  fun_induction readSegments whole cs generalizing parts with
  | case1 | case3 | case4 | case5 => cases h
  | case2 cs p hread =>
    cases h
    obtain ⟨s, hs, rfl, rfl⟩ := exists_of_readSegment hread
    refine ⟨[s], ⟨List.cons_ne_nil s [], by simpa using hs, ?_⟩, List.not_mem_nil, rfl⟩
    rw [intercalate_dots]
    rfl
  | case6 cs p c rest hread hc hrest hp ih =>
    obtain rfl : c = '.' := not_not.mp hc
    obtain ⟨s, hs, rfl, rfl⟩ := exists_of_readSegment hread
    cases hparts : readSegments whole rest with
    | error fault =>
      rw [hparts] at h
      cases h
    | ok parts =>
      rw [hparts] at h
      cases h
      obtain ⟨segments, hcut, hlast, rfl⟩ := ih hparts
      refine ⟨s :: segments, ⟨List.cons_ne_nil s segments,
        List.forall_mem_cons.mpr ⟨hs, hcut.valid⟩, ?_⟩, ?_, rfl⟩
      · obtain ⟨s', segments, rfl⟩ := List.exists_cons_of_ne_nil hcut.nonempty
        rw [List.map_cons, List.map_cons, List.intercalate_cons_cons, ← List.map_cons, hcut.text,
          List.append_assoc]
        rfl
      · rw [List.dropLast_cons_of_ne_nil hcut.nonempty, List.map_cons, List.mem_cons, not_or]
        exact ⟨Ne.symm hp, hlast⟩

/-- A text is parsed when, trimmed, it is not empty, holds no NUL and is cut into segments of which
only the last is a wildcard. Its parts are then what the segments stand for, in their order: the
content of a quoted one as a name, and a bare one trimmed. No text can be cut in two ways. -/
theorem parse_iff_spelled (text : String) :
    (∀ i, parse text = .ok i ↔
      Text.trim text.toList ≠ [] ∧ '\x00' ∉ Text.trim text.toList ∧
      ∃ segments, Cut segments (Text.trim text.toList) ∧
        Part.wildcard ∉ segments.dropLast.map Segment.part ∧
        i.parts = segments.map Segment.part) ∧
    ∀ segments segments', Cut segments (Text.trim text.toList) →
      Cut segments' (Text.trim text.toList) → segments = segments' := by
  refine ⟨fun i => ?_, fun _ _ => Cut.unique⟩
  have hempty : Text.trimmed text = "" ↔ Text.trim text.toList = [] := String.ofList_eq_empty_iff
  have hlist : (Text.trimmed text).toList = Text.trim text.toList := String.toList_ofList
  simp only [parse, hlist, hempty]
  constructor
  · intro h
    split at h
    · cases h
    rename_i hne
    split at h
    · cases h
    rename_i hnul
    cases hparts : readSegments (Text.trimmed text) (Text.trim text.toList) with
    | error fault =>
      rw [hparts] at h
      cases h
    | ok parts =>
      rw [hparts] at h
      cases h
      exact ⟨hne, hnul, exists_cut_of_readSegments hparts⟩
  · rintro ⟨hne, hnul, segments, hcut, hlast, hparts⟩
    rw [if_neg hne, if_neg hnul, hcut.readSegments hlast, ← hparts]
    rfl

def oddSpelling : List Segment :=
  [.quoted '"' ['a', '.', '"', 'b'], .quoted '\x60' ['c'], .bare [' ', 'd', '"', ' '],
    .bare [' ', '*']]

theorem oddSpelling_parsed :
    parse " \"a.\"\"b\".\x60c\x60. d\" . * " =
      .ok ⟨[.name "a.\"b", .name "c", .name "d\"", .wildcard]⟩ ∧
    (∀ segments, Cut segments (Text.trim " \"a.\"\"b\".\x60c\x60. d\" . * ".toList) →
      segments = oddSpelling) ∧
    ∀ i, parse "*.id" ≠ .ok i := by
  have hcut : Cut oddSpelling (Text.trim " \"a.\"\"b\".\x60c\x60. d\" . * ".toList) :=
    ⟨by decide, by decide +kernel, by decide +kernel⟩
  refine ⟨?_, ?_, ?_⟩
  · exact ((parse_iff_spelled _).1 _).mpr
      ⟨by decide +kernel, by decide +kernel, oddSpelling, hcut, by decide +kernel,
        by decide +kernel⟩
  · intro segments h
    exact (parse_iff_spelled _).2 segments oddSpelling h hcut
  · intro i h
    obtain ⟨-, -, segments, hsegments, hlast, -⟩ := ((parse_iff_spelled _).1 _).mp h
    have hstar : Cut [.bare ['*'], .bare ['i', 'd']] (Text.trim "*.id".toList) :=
      ⟨by decide, by decide, by decide +kernel⟩
    rw [(parse_iff_spelled _).2 _ _ hsegments hstar] at hlast
    exact hlast (by decide)

end SqlBuilder.Ident
