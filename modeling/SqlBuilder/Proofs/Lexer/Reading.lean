import SqlBuilder.Proofs.Lexer.Quoted

/-!
# Reading one token

The first token of a text, and the text that is left behind it. A written literal or name is
read as the text it was written for, and nothing that follows is taken along.
-/
namespace SqlBuilder.Lexer

variable {e : Engine} {s : State}

/-- The first token from some state on, with what is left to read. Words and quoted texts end
before the character that completes them, and a symbol is complete by itself. -/
def nextToken (e : Engine) (s : State) : List Char → Option (Token × List Char)
  | [] => s.pending.head?.map fun t => (t, [])
  | c :: cs =>
    match step e s c with
    | ([], s') => nextToken e s' cs
    | (t :: _, _) => some (t, if s = .between then cs else c :: cs)

/-- A symbol completes itself. Any other token is completed by a character that is read again
behind it. -/
theorem step_completes {c : Char} {t : Token} {ts : List Token}
    (h : (step e s c).1 = t :: ts) :
    (s = .between ∧ step e s c = ([t], .between)) ∨
      (s ≠ .between ∧ step e s c = (t :: (first e c).1, (first e c).2)) := by
  cases s with
  | between =>
    refine .inl ⟨rfl, ?_⟩
    rw [step, first] at h ⊢
    by_cases hw : isWordChar c = true
    · rw [if_pos hw] at h
      cases h
    · rw [if_neg hw] at h ⊢
      split at h <;> cases h
      rfl
  | word u =>
    refine .inr ⟨State.noConfusion, ?_⟩
    rw [step] at h ⊢
    by_cases hw : isWordChar c = true
    · rw [if_pos hw] at h
      cases h
    by_cases hm : marksEscapes e u c = true
    · rw [if_neg hw, if_pos hm] at h
      cases h
    · rw [if_neg hw, if_neg hm] at h ⊢
      cases h
      rfl
  | inside q u =>
    rw [step] at h
    split at h
    · cases h
    · split at h <;> cases h
  | escaped q u => cases h
  | closing q u =>
    refine .inr ⟨State.noConfusion, ?_⟩
    rw [step] at h ⊢
    by_cases hc : c = q.mark
    · rw [if_pos hc] at h
      cases h
    · rw [if_neg hc] at h ⊢
      cases h
      rfl

/-- The next token is the first of all tokens, and the others are those of what is left. -/
theorem scan_of_nextToken {cs rest : List Char} {t : Token}
    (h : nextToken e s cs = some (t, rest)) :
    (scan e s cs).1 ++ (scan e s cs).2.pending = t :: tokens e rest := by
  induction cs generalizing s with
  | nil =>
    cases s with
    | between => cases h
    | _ =>
      cases h
      rfl
  | cons c cs ih =>
    rw [nextToken] at h
    split at h
    · rename_i s' hstep
      rw [scan_cons, hstep]
      exact ih h
    · rename_i u us s' hstep
      have hcompletes := step_completes (congrArg Prod.fst hstep)
      cases h
      rcases hcompletes with ⟨rfl, hstep⟩ | ⟨hs, hstep⟩
      · rw [scan_cons, hstep, if_pos rfl]
        rfl
      · rw [scan_cons, hstep, if_neg hs, tokens, scan_cons]
        simp [step]

theorem tokens_of_nextToken {cs rest : List Char} {t : Token}
    (h : nextToken e .between cs = some (t, rest)) : tokens e cs = t :: tokens e rest :=
  scan_of_nextToken h

theorem nextToken_append {cs : List Char} {s' : State} (h : scan e s cs = ([], s'))
    (rest : List Char) : nextToken e s (cs ++ rest) = nextToken e s' rest := by
  induction cs generalizing s with
  | nil =>
    cases h
    rfl
  | cons c cs ih =>
    rw [scan_cons, Prod.mk.injEq, List.append_eq_nil_iff] at h
    obtain ⟨⟨hnone, hrest⟩, hs'⟩ := h
    rw [List.cons_append, nextToken]
    split
    · rename_i u hstep
      rw [hstep] at hrest hs'
      exact ih (Prod.ext hrest hs')
    · rename_i hstep
      rw [hstep] at hnone
      cases hnone

theorem nextToken_closing (q : Quote) (t : List Char) {rest : List Char}
    (h : rest.head? ≠ some q.mark) :
    nextToken e (.closing q t) rest = some (q.token t, rest) := by
  cases rest with
  | nil => rfl
  | cons c cs =>
    have hc : c ≠ q.mark := fun hc => h (congrArg some hc)
    rw [nextToken, step, if_neg hc]
    rfl

theorem nextToken_quoteChars (cs : List Char) {rest : List Char} (h : rest.head? ≠ some '\'') :
    nextToken e .between (e.quoteChars cs ++ rest) = some (.literal cs, rest) := by
  have hmark : (textQuote e (marked e cs)).mark = '\'' := by cases e <;> rfl
  have htoken : (textQuote e (marked e cs)).token cs = .literal cs := by cases e <;> rfl
  rw [nextToken_append (scan_quoteChars (.inl rfl) cs), ← htoken]
  exact nextToken_closing _ cs (hmark ▸ h)

theorem scan_quotedName (name : String) :
    scan e .between (Ident.quotedName e.identQuote name).toList =
      ([], .closing (nameQuote e) name.toList) := by
  have hopen : step e .between e.identQuote = ([], .inside (nameQuote e) []) := by
    cases e <;> rfl
  have hbody : scan e (.inside (nameQuote e) [])
      (Ident.doubled e.identQuote name.toList ++ [e.identQuote]) =
        ([], .closing (nameQuote e) name.toList) := by
    rw [scan_append, scan_doubled]
    exact scan_mark (e := e) (nameQuote e) name.toList
  rw [Ident.quotedName, String.toList_ofList, List.cons_append, scan_cons, hopen, hbody]
  rfl

theorem nextToken_quotedName (name : String) {rest : List Char}
    (h : rest.head? ≠ some e.identQuote) :
    nextToken e .between ((Ident.quotedName e.identQuote name).toList ++ rest) =
      some (.name name.toList, rest) := by
  rw [nextToken_append (scan_quotedName name)]
  exact nextToken_closing (nameQuote e) name.toList h

theorem tokens_quoteText (e : Engine) (text : String) :
    tokens e (e.quoteText text).toList = [.literal text.toList] := by
  rw [Engine.quoteText, String.toList_ofList, ← List.append_nil (e.quoteChars text.toList)]
  exact tokens_of_nextToken (nextToken_quoteChars text.toList (by simp))

theorem tokens_quotedName (name : String) :
    tokens e (Ident.quotedName e.identQuote name).toList = [.name name.toList] := by
  rw [← List.append_nil (Ident.quotedName e.identQuote name).toList]
  exact tokens_of_nextToken (nextToken_quotedName name (by simp))

/-- What is written for a text, before anything but one more of its quotes, is one literal
that stands for the text. What is written for a name is one name. In either case the rest is
read as if it stood alone. -/
theorem quoted_reads_back (e : Engine) :
    (∀ (text : String) (rest : List Char), rest.head? ≠ some '\'' →
      ∃ sql, e.escape (.text text) = .ok sql ∧
        nextToken e .between (sql.toList ++ rest) = some (.literal text.toList, rest) ∧
        tokens e (sql.toList ++ rest) = .literal text.toList :: tokens e rest) ∧
    ∀ (name : String) (rest : List Char), rest.head? ≠ some e.identQuote →
      nextToken e .between (((Ident.Part.name name).toSql e.identQuote).toList ++ rest) =
          some (.name name.toList, rest) ∧
        tokens e (((Ident.Part.name name).toSql e.identQuote).toList ++ rest) =
          .name name.toList :: tokens e rest := by
  constructor
  · intro text rest hrest
    have hnext := nextToken_quoteChars (e := e) text.toList hrest
    refine ⟨e.quoteText text, rfl, ?_⟩
    rw [Engine.quoteText, String.toList_ofList]
    exact ⟨hnext, tokens_of_nextToken hnext⟩
  · intro name rest hrest
    have hnext := nextToken_quotedName (e := e) name hrest
    exact ⟨hnext, tokens_of_nextToken hnext⟩

/-- A backslash at the end does not take the closing quote along, and a doubled quote in a name
does not end it. -/
theorem hostileTexts_read_back :
    ", 'x'".toList.head? ≠ some '\'' ∧ " = 1".toList.head? ≠ some Engine.mysql.identQuote ∧
    Engine.postgres.escape (.text "it's \\") = .ok "E'it''s \\\\'" ∧
    nextToken .postgres .between ("E'it''s \\\\'".toList ++ ", 'x'".toList) =
      some (.literal "it's \\".toList, ", 'x'".toList) ∧
    nextToken .mysql .between ("\x60a\x60\x60.b\x60".toList ++ " = 1".toList) =
      some (.name "a\x60.b".toList, " = 1".toList) := by
  have hliteral : ", 'x'".toList.head? ≠ some '\'' := by decide
  have hname : " = 1".toList.head? ≠ some Engine.mysql.identQuote := by decide
  have hsql : Engine.postgres.escape (.text "it's \\") = .ok "E'it''s \\\\'" := rfl
  obtain ⟨sql, hescape, hread, -⟩ := (quoted_reads_back .postgres).1 "it's \\" _ hliteral
  obtain ⟨hreadName, -⟩ := (quoted_reads_back .mysql).2 "a\x60.b" _ hname
  rw [hsql] at hescape
  cases hescape
  exact ⟨hliteral, hname, hsql, hread, hreadName⟩

end SqlBuilder.Lexer
