import SqlBuilder.Proofs.Faults
import SqlBuilder.Proofs.Parentheses.Sound

/-!
# Nested statements stay inside their parentheses

Every nested statement that is rendered, and every predicate list, has a pair of parentheses of its
own in the outline of the whole statement. In balanced statements the two of each pair match.
-/
namespace SqlBuilder

open Relation (ReflTransGen TransGen)

variable {e : Engine} {layout : Layout}

namespace Outline

variable {o o' middle inner : Outline}

/-- Some pair of parentheses in the outline holds the other one. -/
def Has (layout : Layout) (o inner : Outline) : Prop :=
  ∃ before behind, Encloses layout o before inner behind

namespace Has

theorem of_mem (h : .paren inner ∈ o) : Has layout o inner := by
  obtain ⟨before, behind, rfl⟩ := List.append_of_mem h
  exact ⟨_, _, .here before inner behind⟩

theorem trans (h : Has layout o middle) (h' : Has layout middle inner) : Has layout o inner := by
  obtain ⟨before, behind, h⟩ := h
  induction h with
  | here o middle o' =>
    obtain ⟨before, behind, h'⟩ := h'
    exact ⟨_, _, .deeper o o' h'⟩
  | deeper o o' _ ih =>
    obtain ⟨before, behind, h⟩ := ih h'
    exact ⟨_, _, .deeper o o' h⟩

theorem widen (h : Has layout o inner) (hpart : o <:+: o') : Has layout o' inner := by
  obtain ⟨x, y, rfl⟩ := hpart
  obtain ⟨before, behind, h⟩ := h
  cases h with
  | here a inner b =>
    have hcut : x ++ (a ++ .paren inner :: b) ++ y = (x ++ a) ++ .paren inner :: (b ++ y) := by simp
    rw [hcut]
    exact ⟨_, _, .here (x ++ a) inner (b ++ y)⟩
  | @deeper a b middle inner before behind h =>
    have hcut : x ++ (a ++ .paren middle :: b) ++ y = (x ++ a) ++ .paren middle :: (b ++ y) := by
      simp
    rw [hcut]
    exact ⟨_, _, .deeper (x ++ a) (b ++ y) h⟩

end Has

theorem infix_intercalate (sep : Outline) {lines : List Outline} (h : o ∈ lines) :
    o <:+: sep.intercalate lines := by
  induction lines with
  | nil => cases h
  | cons line lines ih =>
    cases lines with
    | nil =>
      cases List.mem_singleton.mp h
      exact ⟨[], [], by simp⟩
    | cons next lines =>
      rw [List.intercalate_cons_cons]
      rcases List.mem_cons.mp h with rfl | h
      · exact ⟨[], sep ++ sep.intercalate (next :: lines), by simp⟩
      · exact (ih h).trans (List.suffix_append _ _).isInfix

section Lines

variable {y : OutlineEntry} {ys : List OutlineEntry} (hy : y ∈ ys) (h : Has layout y.body inner)

include hy h

theorem has_commaList : Has layout (commaList ys) inner :=
  h.widen (infix_intercalate _ (List.mem_map_of_mem hy))

theorem has_bodies : ∃ line ∈ ys.map OutlineEntry.body, Has layout line inner :=
  ⟨y.body, List.mem_map_of_mem hy, h⟩

theorem has_predicateTail : Has layout (predicateTail ys) inner := by
  induction ys with
  | nil => cases hy
  | cons z ys ih =>
    cases ys with
    | nil =>
      cases List.mem_singleton.mp hy
      exact h
    | cons w rest =>
      rw [predicateTail]
      rcases List.mem_cons.mp hy with rfl | hy
      · exact h.widen (List.prefix_append _ _).isInfix
      · have htail := ih hy
        have hrest : Has layout (if z.op ≠ w.op && !rest.isEmpty then
            [.paren (predicateTail (w :: rest))] else predicateTail (w :: rest)) inner := by
          split
          · exact (Has.of_mem List.mem_cons_self).trans htail
          · exact htail
        exact hrest.widen ((List.suffix_cons _ _).trans (List.suffix_append _ _)).isInfix

theorem has_keywordList (keyword : String) :
    ∃ line ∈ keywordList keyword ys, Has layout line inner := by
  have hne : ¬ys.isEmpty = true := fun hempty => by
    rw [List.isEmpty_iff.mp hempty] at hy
    cases hy
  refine ⟨text (keyword ++ " ") :: commaList ys, ?_, ?_⟩
  · rw [keywordList, if_neg hne]
    exact List.mem_cons_self
  · exact (has_commaList hy h).widen (List.suffix_cons _ _).isInfix

theorem has_keywordPredicates (keyword : String) :
    ∃ line ∈ keywordPredicates keyword ys, Has layout line inner := by
  have hne : ¬ys.isEmpty = true := fun hempty => by
    rw [List.isEmpty_iff.mp hempty] at hy
    cases hy
  refine ⟨[text (keyword ++ " "), .paren (predicateTail ys)], ?_, ?_⟩
  · rw [keywordPredicates, if_neg hne]
    exact List.mem_cons_self
  · exact (Has.of_mem (by simp)).trans (has_predicateTail hy h)

theorem has_inserted (table : String) : ∃ line ∈ inserted table ys, Has layout line inner := by
  cases ys with
  | nil => cases hy
  | cons columns rows =>
    rcases List.mem_cons.mp hy with rfl | hrow
    · exact ⟨_, List.mem_cons_self, (Has.of_mem (by simp)).trans h⟩
    · have htuple : [Node.paren y.body] <:+: [text ", "].intercalate
          (rows.map fun row => [.paren row.body]) :=
        infix_intercalate _ (List.mem_map_of_mem (f := fun row => [Node.paren row.body]) hrow)
      have hrow' : Has layout [Node.paren y.body] inner := (Has.of_mem List.mem_cons_self).trans h
      exact ⟨_, List.mem_cons_of_mem _ List.mem_cons_self,
        (hrow'.widen htuple).widen (List.suffix_cons _ _).isInfix⟩

end Lines

section Statement

variable {y : OutlineEntry} {d : PerClause (List OutlineEntry)} (h : Has layout y.body inner)

include h

theorem has_columns (hy : y ∈ d.select ++ d.aggregate) : Has layout (columns d) inner := by
  rw [columns, if_neg]
  · exact has_commaList hy h
  · rw [Bool.and_eq_true, List.isEmpty_iff, List.isEmpty_iff]
    rintro ⟨hselect, haggregate⟩
    rw [hselect, haggregate] at hy
    cases hy

theorem has_source (table : String) (hy : y ∈ d.source) : Has layout (source table d) inner := by
  rw [source, if_neg]
  · exact has_commaList hy h
  · rw [List.isEmpty_iff]
    intro hsource
    rw [hsource] at hy
    cases hy

theorem has_ending {c : ClauseKind} (hc : c = .ordering ∨ c = .limit) (hy : y ∈ d.get c) :
    ∃ line ∈ ending d, Has layout line inner := by
  rcases hc with rfl | rfl
  · obtain ⟨line, hline, h⟩ := has_keywordList hy h "ORDER BY"
    exact ⟨line, List.mem_append_left _ hline, h⟩
  · obtain ⟨line, hline, h⟩ := has_bodies hy h
    exact ⟨line, List.mem_append_right _ hline, h⟩

theorem has_select (table : String) {c : ClauseKind} (hc : c ∈ StatementKind.select.clauses)
    (hy : y ∈ d.get c) : ∃ line ∈ lines (some .select) table d, Has layout line inner := by
  have hlines (line : Outline) : line ∈ lines (some .select) table d ↔
      line = text "SELECT " :: columns d ∨ line = text "FROM " :: source table d ∨
      line ∈ d.join.map OutlineEntry.body ∨ line ∈ keywordPredicates "WHERE" d.filter ∨
      line ∈ keywordList "GROUP BY" d.grouping ∨ line ∈ keywordPredicates "HAVING" d.having ∨
      line ∈ ending d := by
    simp [lines]
  have hled {keyword : String} {o : Outline} (ho : Has layout o inner) :
      Has layout (text keyword :: o) inner := ho.widen (List.suffix_cons _ _).isInfix
  simp only [hlines]
  simp only [StatementKind.clauses, List.mem_cons, List.not_mem_nil, or_false] at hc
  rcases hc with rfl | rfl | rfl | rfl | rfl | rfl | rfl | hc
  · exact ⟨_, .inl rfl, hled (has_columns h (List.mem_append_left _ hy))⟩
  · exact ⟨_, .inl rfl, hled (has_columns h (List.mem_append_right _ hy))⟩
  · exact ⟨_, .inr (.inl rfl), hled (has_source h table hy)⟩
  · obtain ⟨line, hline, h⟩ := has_bodies hy h
    exact ⟨line, .inr (.inr (.inl hline)), h⟩
  · obtain ⟨line, hline, h⟩ := has_keywordPredicates hy h "WHERE"
    exact ⟨line, .inr (.inr (.inr (.inl hline))), h⟩
  · obtain ⟨line, hline, h⟩ := has_keywordList hy h "GROUP BY"
    exact ⟨line, .inr (.inr (.inr (.inr (.inl hline)))), h⟩
  · obtain ⟨line, hline, h⟩ := has_keywordPredicates hy h "HAVING"
    exact ⟨line, .inr (.inr (.inr (.inr (.inr (.inl hline))))), h⟩
  · obtain ⟨line, hline, h⟩ := has_ending h hc hy
    exact ⟨line, .inr (.inr (.inr (.inr (.inr (.inr hline))))), h⟩

/-- The lines that UPDATE and DELETE have in common. -/
theorem has_changed {c : ClauseKind} (hc : c = .filter ∨ c = .ordering ∨ c = .limit)
    (hy : y ∈ d.get c) (head : List Outline) :
    ∃ line ∈ head ++ keywordPredicates "WHERE" d.filter ++ ending d, Has layout line inner := by
  rcases hc with rfl | hc
  · obtain ⟨line, hline, h⟩ := has_keywordPredicates hy h "WHERE"
    exact ⟨line, List.mem_append_left _ (List.mem_append_right _ hline), h⟩
  · obtain ⟨line, hline, h⟩ := has_ending h hc hy
    exact ⟨line, List.mem_append_right _ hline, h⟩

theorem has_lines {kind : Option StatementKind} (table : String) {c : ClauseKind}
    (hc : c ∈ (kind.getD .select).clauses) (hy : y ∈ d.get c) :
    ∃ line ∈ lines kind table d, Has layout line inner := by
  rw [lines.eq_def]
  cases hkind : kind.getD .select with
  | select =>
    rw [hkind] at hc
    exact has_select h table hc hy
  | insert =>
    rw [hkind] at hc
    cases List.mem_singleton.mp hc
    exact has_inserted hy h table
  | update =>
    rw [hkind] at hc
    simp only [StatementKind.clauses, List.mem_cons, List.not_mem_nil, or_false] at hc
    rcases hc with rfl | hc
    · have hset : Has layout (text "SET " :: commaList d.update) inner :=
        (has_commaList hy h).widen (List.suffix_cons _ _).isInfix
      exact ⟨_, by simp, hset⟩
    · exact has_changed h hc hy [_, _]
  | delete =>
    rw [hkind] at hc
    simp only [StatementKind.clauses, List.mem_cons, List.not_mem_nil, or_false] at hc
    exact has_changed h hc hy [_]

end Statement

theorem exists_line_of_predicates {kind : Option StatementKind} (table : String)
    {d : PerClause (List OutlineEntry)} {c : ClauseKind} (hc : c ∈ (kind.getD .select).clauses)
    (hpredicates : c = .filter ∨ c = .having) (hne : d.get c ≠ []) :
    ∃ keyword, [text keyword, .paren (predicateTail (d.get c))] ∈ lines kind table d := by
  have hline (keyword : String) :
      [text (keyword ++ " "), .paren (predicateTail (d.get c))] ∈
        keywordPredicates keyword (d.get c) := by
    rw [keywordPredicates, if_neg (by simpa using hne)]
    exact List.mem_cons_self
  rcases hpredicates with rfl | rfl
  · have hlines : keywordPredicates "WHERE" d.filter ⊆ lines kind table d := by
      intro line hline
      rw [lines.eq_def]
      cases hkind : kind.getD .select with
      | insert =>
        rw [hkind] at hc
        cases List.mem_singleton.mp hc
      | _ => simp [hline]
    exact ⟨_, hlines (hline "WHERE")⟩
  · have hlines : keywordPredicates "HAVING" d.having ⊆ lines kind table d := by
      intro line hline
      rw [lines.eq_def]
      cases hkind : kind.getD .select with
      | select => simp [hline]
      | _ =>
        rw [hkind] at hc
        simp [StatementKind.clauses] at hc
    exact ⟨_, hlines (hline "HAVING")⟩

theorem has_join {line : Outline} {lines : List Outline} (hline : line ∈ lines)
    (h : Has layout line inner) (depth : Nat) (isSub : Bool) :
    Has layout (join depth isSub lines) inner := by
  have hbody := h.widen (infix_intercalate [.piece (.clause depth)] hline)
  rw [join]
  split
  · exact hbody.widen ⟨[.piece (.edge depth)], [.piece (.edge (depth - 1))], rfl⟩
  · exact hbody

end Outline

namespace Snapshot

variable {s t : Snapshot}

theorem has_renders (h : s.Renders t) (depth : Nat) :
    (s.outline depth).Has layout (t.outline (depth + 1)) := by
  obtain ⟨c, hc, f, hf, ht⟩ := mem_subsIn.mp h
  have hbody : Outline.Has layout (f.outlineEntry depth).body (t.outline (depth + 1)) := by
    rw [f.outlineEntry_eq]
    exact .of_mem (List.mem_map_of_mem (f := Part.node depth) ht)
  have hentry : f.outlineEntry depth ∈ (tableOutlines depth s.clauses).get c := by
    rw [get_tableOutlines]
    exact List.mem_map_of_mem hf
  obtain ⟨line, hline, h⟩ := Outline.has_lines hbody (s.table.getD "") hc hentry
  rw [outline_eq]
  exact Outline.has_join hline h depth s.isSub

theorem exists_has_of_nested (layout : Layout) (h : TransGen Renders s t) :
    ∃ depth, (s.outline 0).Has layout (t.outline depth) := by
  induction h with
  | single h => exact ⟨1, has_renders h 0⟩
  | tail _ h ih =>
    obtain ⟨depth, ih⟩ := ih
    exact ⟨depth + 1, ih.trans (has_renders h depth)⟩

theorem has_predicates {c : ClauseKind} (hc : c ∈ (s.kind.getD .select).clauses)
    (hpredicates : c = .filter ∨ c = .having) (hne : s.clause c ≠ []) (depth : Nat) :
    (s.outline depth).Has layout
      (.predicateTail ((s.clause c).map (Fragment.outlineEntry depth))) := by
  have hentries := get_tableOutlines s depth c
  have hne' : (tableOutlines depth s.clauses).get c ≠ [] := by
    rw [hentries]
    exact fun hnil => hne (List.map_eq_nil_iff.mp hnil)
  obtain ⟨keyword, hline⟩ :=
    Outline.exists_line_of_predicates (s.table.getD "") hc hpredicates hne'
  rw [hentries] at hline
  rw [outline_eq]
  exact Outline.has_join hline (.of_mem (by simp)) depth s.isSub

theorem exists_has_of_predicates (layout : Layout) (h : ReflTransGen Renders s t) {c : ClauseKind}
    (hc : c ∈ (t.kind.getD .select).clauses) (hpredicates : c = .filter ∨ c = .having)
    (hne : t.clause c ≠ []) : ∃ depth, (s.outline 0).Has layout
      (.predicateTail ((t.clause c).map (Fragment.outlineEntry depth))) := by
  rcases Relation.reflTransGen_iff_eq_or_transGen.mp h with rfl | h
  · exact ⟨0, has_predicates hc hpredicates hne 0⟩
  · obtain ⟨depth, h⟩ := exists_has_of_nested layout h
    exact ⟨depth, h.trans (has_predicates hc hpredicates hne depth)⟩

/-- Where the target and every fragment are balanced, at every level of nesting, the rendered text
is balanced in either layout, and the two of each pair of parentheses in its outline match. Such a
pair stands around the text of each nested statement, and around each predicate list. -/
theorem parentheses_match {s : Snapshot} (h : ∀ t, s.Within t → t.Balanced e) {layout : Layout}
    {text : String} (hrender : s.render layout = .ok text) :
    Lexer.Balanced e text.toList ∧
    (∀ before inner behind, Outline.Encloses layout (s.outline 0) before inner behind →
      Outline.Matched e text.toList before (inner.chars layout) behind) ∧
    (∀ t, TransGen Renders s t → ∃ depth before behind pieces, t.pieces depth = .ok pieces ∧
      Outline.Encloses layout (s.outline 0) before (t.outline depth) behind ∧
      Outline.Matched e text.toList before (layout.write pieces).toList behind) ∧
    (∀ t, ReflTransGen Renders s t → ∀ c ∈ (t.kind.getD .select).clauses,
      c = .filter ∨ c = .having → t.clause c ≠ [] → ∃ depth before behind,
        Outline.Encloses layout (s.outline 0) before
          (.predicateTail ((t.clause c).map (Fragment.outlineEntry depth))) behind) := by
  obtain ⟨ps, hps, rfl⟩ := Snapshot.exists_pieces hrender
  have htext := writes_outline s 0 ps hps layout
  have hsound : (s.outline 0).Sound e layout := sound_outline h 0
  have hmatched (before : List Char) (inner : Outline) (behind : List Char)
      (hplace : Outline.Encloses layout (s.outline 0) before inner behind) :
      Outline.Matched e (layout.write ps).toList before (inner.chars layout) behind := by
    rw [htext]
    exact hsound.matched hplace
  refine ⟨?_, hmatched, ?_, ?_⟩
  · rw [htext]
    exact hsound.balanced
  · intro t ht
    obtain ⟨depth, before, behind, hplace⟩ := exists_has_of_nested layout ht
    obtain ⟨qs, hqs⟩ := exists_pieces_of_renders hps ht.to_reflTransGen depth
    refine ⟨depth, before, behind, qs, hqs, hplace, ?_⟩
    rw [writes_outline t depth qs hqs layout]
    exact hmatched before (t.outline depth) behind hplace
  · intro t ht c hc hpredicates hne
    obtain ⟨depth, before, behind, hplace⟩ :=
      exists_has_of_predicates layout ht hc hpredicates hne
    exact ⟨depth, before, behind, hplace⟩

def sadPosts : Snapshot :=
  (({ empty with kind := some .select, table := some "\x60post\x60", isSub := true }).push .select
    (.ofText "\x60author\x60")).push .filter (.ofText "\x60title\x60 = ':('")

def sadAuthors : Snapshot :=
  (({ empty with kind := some .select, table := some "\x60user\x60" }).push .filter
    ⟨[.sql "NOT (\x60id\x60 IN ", .sub sadPosts, .sql ")"], some .or⟩).push .filter
    (.ofText "\x60name\x60 = ':)'")

def sadPostsText : String := "SELECT \x60author\x60 FROM \x60post\x60 WHERE (\x60title\x60 = ':(')"

def sadAuthorsText : String :=
  "SELECT * FROM \x60user\x60 WHERE (NOT (\x60id\x60 IN (" ++ sadPostsText ++
    ")) OR \x60name\x60 = ':)')"

theorem sadAuthors_match :
    (∀ t, sadAuthors.Within t → t.Balanced .mysql) ∧
    sadAuthors.render .compact = .ok sadAuthorsText ∧
    ∃ before behind,
      Outline.Matched .mysql sadAuthorsText.toList before sadPostsText.toList behind := by
  have hbalanced (s : Snapshot) (htable : ∀ name ∈ s.table, Lexer.Balanced .mysql name.toList)
      (hclauses : ∀ c ∈ ClauseKind.all, ∀ f ∈ s.clause c, f.Balanced .mysql) : s.Balanced .mysql :=
    ⟨htable, fun c => hclauses c (ClauseKind.mem_all c)⟩
  have hinner : ∀ t ∈ sadAuthors.subsIn ClauseKind.all, ∀ u, t.Within u → u.Balanced .mysql := by
    intro t ht
    have hmem : t ∈ [sadPosts] := ht
    cases List.mem_singleton.mp hmem
    refine forall_within (hbalanced _ ?_ (by decide +kernel)) fun u hu => absurd hu List.not_mem_nil
    intro name hname
    cases hname
    decide +kernel
  have hall : ∀ t, sadAuthors.Within t → t.Balanced .mysql := by
    refine forall_within (hbalanced _ ?_ (by decide +kernel)) hinner
    intro name hname
    cases hname
    decide +kernel
  have hrender : sadAuthors.render .compact = .ok sadAuthorsText :=
    Outcome.eq_ok_of_toOption (by decide +kernel)
  have hnested : sadAuthors.Renders sadPosts :=
    mem_subsIn.mpr ⟨.filter, by decide, _, List.mem_cons_self, by simp⟩
  obtain ⟨depth, before, behind, ps, hps, -, hmatched⟩ :=
    (parentheses_match hall hrender).2.2.1 sadPosts (.single hnested)
  have hlines : sadPosts.pieces depth = .ok (Lines.join depth true
      [[.text "SELECT ", .text "\x60author\x60"], [.text "FROM ", .text "\x60post\x60"],
        [.text "WHERE ", .text "(", .text "\x60title\x60 = ':('", .text ")"]]) := rfl
  have hwrite : Layout.compact.write ps = sadPostsText := by
    rw [hlines] at hps
    cases hps
    rw [Lines.join]
    split <;> rfl
  rw [hwrite] at hmatched
  exact ⟨hall, hrender, before, behind, hmatched⟩

end Snapshot

end SqlBuilder
