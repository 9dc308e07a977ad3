import SqlBuilder.Proofs.Parentheses.Outline

/-!
# Outlines of balanced statements

Where the target and every fragment of a statement and of those nested in it are balanced by
themselves, so is each level of its outline: between two fragments there is always a text that ends
whatever token stands before it.
-/
namespace SqlBuilder

open Lexer
open Payload (separates_lineBreak)

variable {e : Engine} {layout : Layout}

def Part.item : Part → Lexer.Item
  | .sql text => .text text.toList
  | .sub _ => .atom

/-- The texts of a fragment, one after the other, with its nested statements as single tokens. -/
def Fragment.Balanced (e : Engine) (f : Fragment) : Prop := Whole e (f.parts.map Part.item)

instance (e : Engine) (f : Fragment) : Decidable (f.Balanced e) :=
  inferInstanceAs (Decidable (Whole e (f.parts.map Part.item)))

structure Snapshot.Balanced (e : Engine) (s : Snapshot) : Prop where
  table : ∀ name, s.table = some name → Lexer.Balanced e name.toList
  fragments : ∀ c, ∀ f ∈ s.clause c, f.Balanced e

namespace Outline

variable {o o' : Outline} {p : Piece}

theorem parenFree_written_clause (layout : Layout) (depth : Nat) :
    ParenFree ((Piece.clause depth).written layout).toList ∧
      ParenFree ((Piece.edge depth).written layout).toList := by
  have hbreak : ParenFree (Piece.lineBreak depth).toList := by
    intro c hc
    rw [Piece.lineBreak, String.toList_ofList, List.mem_cons, List.mem_replicate] at hc
    rcases hc with rfl | ⟨-, rfl⟩ <;> decide
  have hspace : ParenFree " ".toList ∧ ParenFree "".toList := by decide
  cases layout with
  | compact => exact hspace
  | pretty => exact ⟨hbreak, hbreak⟩

namespace Sound

theorem nil : Sound e layout [] := .mk .nil fun _ h => absurd h List.not_mem_nil

theorem paren (h : Sound e layout o) : Sound e layout [.paren o] := by
  refine .mk .atom fun inner hmem => ?_
  cases List.mem_singleton.mp hmem
  exact h

theorem text {s : String} (h : Balanced e s.toList) : Sound e layout [text s] := by
  refine .mk (.text h) fun inner hmem => ?_
  cases List.mem_singleton.mp hmem

theorem opened (hp : Opens e (p.written layout).toList)
    (hfree : ParenFree (p.written layout).toList) (h : Sound e layout o) :
    Sound e layout (.piece p :: o) := by
  refine .mk (h.whole.opened hp hfree) fun inner hmem => ?_
  rcases List.mem_cons.mp hmem with hmem | hmem
  · cases hmem
  · exact h.of_mem hmem

theorem separated (h : Sound e layout o) (hp : Separates e (p.written layout).toList)
    (hfree : ParenFree (p.written layout).toList) (h' : Sound e layout o') :
    Sound e layout (o ++ .piece p :: o') := by
  refine .mk ?_ fun inner hmem => ?_
  · rw [List.map_append, List.map_cons]
    exact h.whole.separated hp hfree h'.whole
  · rcases List.mem_append.mp hmem with hmem | hmem
    · exact h.of_mem hmem
    · rcases List.mem_cons.mp hmem with hmem | hmem
      · cases hmem
      · exact h'.of_mem hmem

theorem before_paren (h : Sound e layout o) (h' : Sound e layout o') :
    Sound e layout (o ++ [.paren o']) := by
  refine .mk ?_ fun inner hmem => ?_
  · rw [List.map_append]
    exact h.whole.before_atom
  · rcases List.mem_append.mp hmem with hmem | hmem
    · exact h.of_mem hmem
    · cases List.mem_singleton.mp hmem
      exact h'

theorem intercalate (hp : Separates e (p.written layout).toList)
    (hfree : ParenFree (p.written layout).toList) {os : List Outline}
    (h : ∀ o ∈ os, Sound e layout o) : Sound e layout ([Node.piece p].intercalate os) := by
  induction os with
  | nil => exact nil
  | cons o os ih =>
    rw [List.forall_mem_cons] at h
    cases os with
    | nil =>
      rw [List.intercalate_singleton]
      exact h.1
    | cons next os =>
      rw [List.intercalate_cons_cons, List.append_assoc]
      exact h.1.separated hp hfree (ih h.2)

theorem before_edge (h : Sound e layout o) (depth : Nat) :
    Sound e layout (o ++ [.piece (.edge depth)]) := by
  have hfree := (parenFree_written_clause layout depth).2
  cases layout with
  | pretty => exact h.separated (separates_lineBreak depth) hfree nil
  | compact =>
    refine .mk ?_ fun inner hmem => ?_
    · rw [List.map_append]
      exact h.whole.before_nil
    · rcases List.mem_append.mp hmem with hmem | hmem
      · exact h.of_mem hmem
      · cases List.mem_singleton.mp hmem

end Sound

section Lines

variable {ys : List OutlineEntry}

theorem sound_bodies (h : ∀ y ∈ ys, Sound e layout y.body) :
    ∀ line ∈ ys.map OutlineEntry.body, Sound e layout line := by
  intro line hline
  obtain ⟨y, hy, rfl⟩ := List.mem_map.mp hline
  exact h y hy

theorem sound_commaList (h : ∀ y ∈ ys, Sound e layout y.body) : Sound e layout (commaList ys) := by
  have hcomma : Separates e ", ".toList := by cases e <;> decide
  have hfree : ParenFree ", ".toList := by decide
  exact Sound.intercalate (p := .text ", ") hcomma hfree (sound_bodies h)

theorem sound_predicateTail (h : ∀ y ∈ ys, Sound e layout y.body) :
    Sound e layout (predicateTail ys) := by
  induction ys with
  | nil => exact .nil
  | cons y ys ih =>
    rw [List.forall_mem_cons] at h
    cases ys with
    | nil => exact h.1
    | cons z ys =>
      have hsep : Separates e (" " ++ y.op.keyword ++ " ").toList :=
        Condition.separates_joiner e y.op
      have hfree : ParenFree (" " ++ y.op.keyword ++ " ").toList := by cases y.op <;> decide
      have htail := ih h.2
      rw [predicateTail]
      split
      · exact h.1.separated (p := .text _) hsep hfree htail.paren
      · exact h.1.separated (p := .text _) hsep hfree htail

/-- A keyword with the space behind it, in front of a list. -/
structure Leads (keyword : String) : Prop where
  opens : ∀ e, Opens e (keyword ++ " ").toList
  free : ParenFree (keyword ++ " ").toList

theorem sound_keywordList {keyword : String} (hk : Leads keyword)
    (h : ∀ y ∈ ys, Sound e layout y.body) :
    ∀ line ∈ keywordList keyword ys, Sound e layout line := by
  intro line hline
  rw [keywordList] at hline
  split at hline
  · cases hline
  · cases List.mem_singleton.mp hline
    exact (sound_commaList h).opened (hk.opens e) hk.free

theorem sound_keywordPredicates {keyword : String} (hk : Leads keyword)
    (h : ∀ y ∈ ys, Sound e layout y.body) :
    ∀ line ∈ keywordPredicates keyword ys, Sound e layout line := by
  intro line hline
  rw [keywordPredicates] at hline
  split at hline
  · cases hline
  · cases List.mem_singleton.mp hline
    exact (sound_predicateTail h).paren.opened (hk.opens e) hk.free

variable {d : PerClause (List OutlineEntry)} {table : String}

theorem sound_ending (h : ∀ k, ∀ y ∈ d.get k, Sound e layout y.body) :
    ∀ line ∈ ending d, Sound e layout line := by
  have horder : Leads "ORDER BY" := ⟨fun e => by cases e <;> decide, by decide⟩
  exact List.forall_mem_append.mpr
    ⟨sound_keywordList horder (h .ordering), sound_bodies (h .limit)⟩

theorem leads_where : Leads "WHERE" := ⟨fun e => by cases e <;> decide, by decide⟩

theorem sound_select (htable : Balanced e table.toList)
    (h : ∀ k, ∀ y ∈ d.get k, Sound e layout y.body) :
    ∀ line ∈ lines (some .select) table d, Sound e layout line := by
  have hselect : Leads "SELECT" := ⟨fun e => by cases e <;> decide, by decide⟩
  have hfrom : Leads "FROM" := ⟨fun e => by cases e <;> decide, by decide⟩
  have hgroup : Leads "GROUP BY" := ⟨fun e => by cases e <;> decide, by decide⟩
  have hhaving : Leads "HAVING" := ⟨fun e => by cases e <;> decide, by decide⟩
  have hstar : Balanced e "*".toList := by cases e <;> decide
  have hcolumns : Sound e layout (columns d) := by
    rw [columns]
    split
    · exact .text hstar
    · exact sound_commaList (List.forall_mem_append.mpr ⟨h .select, h .aggregate⟩)
  have hsource : Sound e layout (source table d) := by
    rw [source]
    split
    · exact .text htable
    · exact sound_commaList (h .source)
  have hhead : ∀ line ∈ [text "SELECT " :: columns d, text "FROM " :: source table d],
      Sound e layout line := by
    rw [List.forall_mem_cons, List.forall_mem_singleton]
    exact ⟨hcolumns.opened (p := .text "SELECT ") (hselect.opens e) hselect.free,
      hsource.opened (p := .text "FROM ") (hfrom.opens e) hfrom.free⟩
  have hfiltered := List.forall_mem_append.mpr
    ⟨List.forall_mem_append.mpr ⟨hhead, sound_bodies (h .join)⟩,
      sound_keywordPredicates leads_where (h .filter)⟩
  have hgrouped := List.forall_mem_append.mpr
    ⟨List.forall_mem_append.mpr ⟨hfiltered, sound_keywordList hgroup (h .grouping)⟩,
      sound_keywordPredicates hhaving (h .having)⟩
  exact List.forall_mem_append.mpr ⟨hgrouped, sound_ending h⟩

theorem balanced_named {words : String} (hopens : Opens e words.toList)
    (hfree : ParenFree words.toList) (htable : Balanced e table.toList) :
    Balanced e (words ++ table).toList := by
  rw [String.toList_append]
  exact htable.after hopens hfree

theorem sound_insert (htable : Balanced e table.toList)
    (h : ∀ k, ∀ y ∈ d.get k, Sound e layout y.body) :
    ∀ line ∈ lines (some .insert) table d, Sound e layout line := by
  have hinto : Opens e "INSERT INTO ".toList := by cases e <;> decide
  have hvalues : Leads "VALUES" := ⟨fun e => by cases e <;> decide, by decide⟩
  have hspace : Separates e " ".toList := by cases e <;> decide
  have hcomma : Separates e ", ".toList := by cases e <;> decide
  have hcommaFree : ParenFree ", ".toList := by decide
  have hname : Balanced e ("INSERT INTO " ++ table ++ " ").toList := by
    rw [String.toList_append]
    exact (balanced_named hinto (by decide) htable).before hspace (by decide)
  have hrows : ∀ y ∈ d.insert, Sound e layout y.body := h .insert
  show ∀ line ∈ inserted table d.insert, Sound e layout line
  cases hinsert : d.insert with
  | nil => exact fun line hline => absurd hline List.not_mem_nil
  | cons columns rows =>
    rw [hinsert, List.forall_mem_cons] at hrows
    have htuples : ∀ o ∈ rows.map fun row : OutlineEntry => [Node.paren row.body],
        Sound e layout o := by
      intro o ho
      obtain ⟨row, hrow, rfl⟩ := List.mem_map.mp ho
      exact (hrows.2 row hrow).paren
    have htuples' := Sound.intercalate (p := .text ", ") hcomma hcommaFree htuples
    rw [inserted, List.forall_mem_cons, List.forall_mem_singleton]
    exact ⟨(Sound.text hname).before_paren hrows.1,
      htuples'.opened (p := .text "VALUES ") (hvalues.opens e) hvalues.free⟩

theorem sound_update (htable : Balanced e table.toList)
    (h : ∀ k, ∀ y ∈ d.get k, Sound e layout y.body) :
    ∀ line ∈ lines (some .update) table d, Sound e layout line := by
  have hupdate : Opens e "UPDATE ".toList := by cases e <;> decide
  have hset : Leads "SET" := ⟨fun e => by cases e <;> decide, by decide⟩
  have hhead : ∀ line ∈ [[text ("UPDATE " ++ table)], text "SET " :: commaList d.update],
      Sound e layout line := by
    rw [List.forall_mem_cons, List.forall_mem_singleton]
    exact ⟨.text (balanced_named hupdate (by decide) htable),
      (sound_commaList (h .update)).opened (p := .text "SET ") (hset.opens e) hset.free⟩
  exact List.forall_mem_append.mpr
    ⟨List.forall_mem_append.mpr ⟨hhead, sound_keywordPredicates leads_where (h .filter)⟩,
      sound_ending h⟩

theorem sound_delete (htable : Balanced e table.toList)
    (h : ∀ k, ∀ y ∈ d.get k, Sound e layout y.body) :
    ∀ line ∈ lines (some .delete) table d, Sound e layout line := by
  have hdelete : Opens e "DELETE FROM ".toList := by cases e <;> decide
  have hhead : Sound e layout [text ("DELETE FROM " ++ table)] :=
    .text (balanced_named hdelete (by decide) htable)
  refine List.forall_mem_append.mpr ⟨List.forall_mem_cons.mpr ⟨hhead, ?_⟩, sound_ending h⟩
  exact sound_keywordPredicates leads_where (h .filter)

theorem sound_lines (kind : Option StatementKind) (htable : Balanced e table.toList)
    (h : ∀ k, ∀ y ∈ d.get k, Sound e layout y.body) :
    ∀ line ∈ lines kind table d, Sound e layout line := by
  rw [lines.eq_def]
  cases kind.getD .select with
  | select => exact sound_select htable h
  | insert => exact sound_insert htable h
  | update => exact sound_update htable h
  | delete => exact sound_delete htable h

theorem sound_join {lines : List Outline} (depth : Nat) (isSub : Bool)
    (h : ∀ line ∈ lines, Sound e layout line) : Sound e layout (join depth isSub lines) := by
  have hseparates := Payload.separating_clause (e := e) depth layout
  have hfree (depth : Nat) := parenFree_written_clause layout depth
  have hbody := Sound.intercalate hseparates (hfree depth).1 h
  have hedge : Opens e ((Piece.edge depth).written layout).toList := by
    cases layout with
    | compact => rfl
    | pretty => exact (separates_lineBreak depth).opens
  rw [join]
  split
  · exact (hbody.before_edge (depth - 1)).opened hedge (hfree depth).2
  · exact hbody

end Lines

end Outline

theorem Fragment.Balanced.sound {f : Fragment} (h : f.Balanced e) {depth : Nat}
    (hsub : ∀ t, .sub t ∈ f.parts → (t.outline (depth + 1)).Sound e layout) :
    (f.outlineEntry depth).body.Sound e layout := by
  have hitem (p : Part) : Outline.item layout (p.node depth) = p.item := by cases p <;> rfl
  rw [f.outlineEntry_eq depth]
  refine .mk ?_ fun inner hmem => ?_
  · rw [List.map_map]
    have hitems : f.parts.map (Outline.item layout ∘ Part.node depth) = f.parts.map Part.item :=
      List.map_congr_left fun p _ => hitem p
    rw [hitems]
    exact h
  · obtain ⟨p, hp, hnode⟩ := List.mem_map.mp hmem
    cases p with
    | sql text => cases hnode
    | sub t =>
      cases hnode
      exact hsub t hp

namespace Snapshot

open Relation (ReflTransGen)

/-- Every level of the outline is balanced, however deep it lies. -/
theorem sound_outline {s : Snapshot} (h : ∀ t, s.Within t → t.Balanced e) (depth : Nat) :
    (s.outline depth).Sound e layout := by
  induction s using nesting_induction generalizing depth with
  | step s ih =>
    have hself := h s .refl
    have htable : Lexer.Balanced e (s.table.getD "").toList := by
      cases htable : s.table with
      | none => cases e <;> decide
      | some name => exact hself.table name htable
    rw [outline_eq]
    refine Outline.sound_join depth s.isSub (Outline.sound_lines s.kind htable fun k y hy => ?_)
    rw [get_tableOutlines] at hy
    obtain ⟨f, hf, rfl⟩ := List.mem_map.mp hy
    refine (hself.fragments k f hf).sound fun t ht => ih k f hf t ht ?_ (depth + 1)
    exact fun u hu => h u (.head (holds_iff.mpr ⟨k, f, hf, ht⟩) hu)

end Snapshot

end SqlBuilder
