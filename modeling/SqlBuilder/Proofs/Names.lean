import SqlBuilder.Field
import SqlBuilder.Proofs.Render
import SqlBuilder.Proofs.Text

/-!
# Names in one text and names in a list

A field of names can be written as one text with commas, or as a list. A name that closes what it
opens and has no comma of its own is cut out of the text as it went in, so both ways give the same
fragments.
-/
namespace SqlBuilder.Field

open List (Forall₂)
open Outcome (Alike)

/-- The name closes its quotes and parentheses and has no comma outside of them. -/
def SelfContained (name : String) : Prop := Text.Returns ',' .start name.toList

instance (name : String) : Decidable (SelfContained name) :=
  inferInstanceAs (Decidable (Text.Returns ',' .start name.toList))

/-- The segment is the name with blanks before and behind it. -/
def Padded (name segment : String) : Prop :=
  ∃ before behind, Text.blank before = true ∧ Text.blank behind = true ∧
    segment = before ++ name ++ behind

variable {name segment : String}

theorem returns_blanks {blanks : String} (h : Text.blank blanks = true) :
    Text.Returns ',' .start blanks.toList := by
  have hone (c : Char) (hc : c ∈ blanks.toList) : Text.Returns ',' .start [c] := by
    obtain ⟨hcomma, hnext⟩ := Text.next_of_isBlank (List.all_eq_true.mp h c hc)
    exact ⟨⟨by simp [hcomma], trivial⟩, hnext⟩
  have hall := Text.Returns.flatMap hone
  rwa [List.flatMap_singleton'] at hall

theorem Padded.selfContained (h : Padded name segment) (hname : SelfContained name) :
    SelfContained segment := by
  obtain ⟨before, behind, hbefore, hbehind, rfl⟩ := h
  rw [SelfContained, String.toList_append, String.toList_append]
  exact ((returns_blanks hbefore).append hname).append (returns_blanks hbehind)

theorem Padded.trim (h : Padded name segment) :
    Text.trim segment.toList = Text.trim name.toList := by
  obtain ⟨before, behind, hbefore, hbehind, rfl⟩ := h
  rw [String.toList_append, String.toList_append, Text.trim_append_blanks hbehind,
    ← Text.trim_trimStart, Text.trimStart_append, if_pos (Text.trimStart_eq_nil.mpr hbefore),
    Text.trim_trimStart]

/-- The text is cut back into its names, with the blanks around them left on. -/
theorem splitTop_names {names segments : List String} (hne : names ≠ [])
    (hnames : ∀ name ∈ names, SelfContained name) (hpadded : Forall₂ Padded names segments) :
    Forall₂ (fun piece name => Text.trim piece = Text.trim name.toList)
      (Text.splitTop ',' (",".intercalate segments).toList) names := by
  have htrims : (segments.map String.toList).map Text.trim =
      (names.map String.toList).map Text.trim := by
    rw [← List.forall₂_eq_eq_eq, List.map_map, List.map_map, List.forall₂_map_left_iff,
      List.forall₂_map_right_iff]
    exact hpadded.flip.imp fun segment name h => Padded.trim h
  have hsegments : segments.map String.toList ≠ [] := by
    rintro hnil
    rw [List.map_eq_nil_iff] at hnil
    subst hnil
    cases hpadded
    exact hne rfl
  have hreturns : ∀ t ∈ segments.map String.toList, Text.Returns ',' .start t := by
    intro t ht
    obtain ⟨segment, hsegment, rfl⟩ := List.mem_map.mp ht
    obtain ⟨name, hname, h⟩ := Outcome.exists_of_mem_right hpadded hsegment
    exact Padded.selfContained h (hnames name hname)
  have hgap : Text.allBlank [] = true := rfl
  have hcut := Text.splitTop_joined hgap hsegments hreturns
  rw [htrims, List.map_map, ← List.forall₂_eq_eq_eq, List.forall₂_map_left_iff,
    List.forall₂_map_right_iff] at hcut
  rwa [String.toList_intercalate]

/-- Blanks around a name mean nothing; the text it comes from is only told in an error. -/
theorem quoteAliased_alike (e : Engine) {a b : List Char} (h : Text.trim a = Text.trim b)
    (whole whole' : String) :
    Alike (· = ·) (quoteAliased e whole a) (quoteAliased e whole' b) := by
  rw [quoteAliased, quoteAliased, h]
  by_cases hblank : Text.trim b = []
  · rw [if_pos hblank, if_pos hblank]
    exact .error rfl
  · rw [if_neg hblank, if_neg hblank]
    exact .refl _ fun _ _ => rfl

theorem fragments_names (e : Engine) {names : List String} (hne : names ≠ []) :
    (Field.list names).fragments e =
      names.mapM fun name => (quoteAliased e name name.toList).map .ofText := by
  cases names with
  | nil => exact absurd rfl hne
  | cons name names => rfl

theorem fragments_text_alike (e : Engine) {names segments : List String} (hne : names ≠ [])
    (hnames : ∀ name ∈ names, SelfContained name) (hpadded : Forall₂ Padded names segments) :
    Alike (· = ·) ((Field.text (",".intercalate segments)).fragments e)
      ((Field.list names).fragments e) := by
  rw [fragments_names e hne, fragments, ← List.forall₂_eq_eq_eq]
  refine Alike.mapM (splitTop_names hne hnames hpadded) fun piece name h => ?_
  exact (quoteAliased_alike e h _ _).map fun a b hab => congrArg Fragment.ofText hab

theorem exists_texts_of_fragments {e : Engine} {names : List String} (hne : names ≠ [])
    {fs : List Fragment} (h : (Field.list names).fragments e = .ok fs) : ∃ texts,
    Forall₂ (fun name text => quoteAliased e name name.toList = .ok text) names texts ∧
      fs = texts.map .ofText := by
  rw [fragments_names e hne, Outcome.mapM_map] at h
  obtain ⟨texts, htexts, rfl⟩ := Outcome.exists_of_map_eq_ok h
  exact ⟨texts, Outcome.forall₂_of_mapM_eq_ok htexts, rfl⟩

theorem intercalate_merge (sep a b : String) (texts : List String) :
    sep.intercalate ((a ++ sep ++ b) :: texts) = sep.intercalate (a :: b :: texts) := by
  rw [String.intercalate_cons_cons]
  cases texts with
  | nil => rfl
  | cons c texts =>
    rw [String.intercalate_cons_cons, String.intercalate_cons_cons]
    simp only [String.append_assoc]

theorem render_foldl_join (layout : Layout) (depth : Nat) (texts : List String) {f : Fragment}
    {text : String} (h : f.render layout depth = .ok text) :
    ((texts.map Fragment.ofText).foldl (Fragment.join ", ") f).render layout depth =
      .ok (", ".intercalate (text :: texts)) := by
  induction texts generalizing f text with
  | nil => exact h
  | cons t texts ih =>
    obtain ⟨ps, hps, rfl⟩ := Fragment.exists_pieces h
    have hjoin : (f.join ", " (.ofText t)).render layout depth =
        .ok (layout.write ps ++ ", " ++ t) := by
      rw [Fragment.render_eq, Fragment.pieces_join, hps]
      show Except.ok (layout.write (ps ++ [.text ", ", .text t])) = _
      rw [Layout.write_append, Layout.write_cons, Layout.write_singleton, String.append_assoc]
      rfl
    rw [List.map_cons, List.foldl_cons, ih hjoin, intercalate_merge]

theorem exists_joined {e : Engine} {texts : List String} (hne : texts ≠ []) :
    ∃ f : Fragment, (∀ field : Field, field.fragments e = .ok (texts.map .ofText) →
      field.joined e = .ok f) ∧
      ∀ layout depth, f.render layout depth = .ok (", ".intercalate texts) := by
  cases texts with
  | nil => exact absurd rfl hne
  | cons text texts =>
    refine ⟨(texts.map Fragment.ofText).foldl (Fragment.join ", ") (.ofText text), ?_, ?_⟩
    · intro field h
      rw [joined, h]
      rfl
    · intro layout depth
      have hfirst : (Fragment.ofText text).render layout depth = .ok text := by
        rw [Fragment.render_eq, Fragment.pieces_ofText]
        exact congrArg Except.ok (layout.write_singleton (.text text))
      exact render_foldl_join layout depth texts hfirst

/-- Names that are whole by themselves mean the same in one text with commas and in a list: both
fail, for the same kind of reason, or both give one fragment for each name in its order, and as one
fragment the names are shown with commas between. -/
theorem text_alike_list (e : Engine) {names segments : List String} (hne : names ≠ [])
    (hnames : ∀ name ∈ names, SelfContained name) (hpadded : Forall₂ Padded names segments) :
    (∃ x y : SqlError, x.kind = y.kind ∧
      (Field.text (",".intercalate segments)).fragments e = .error x ∧
      (Field.text (",".intercalate segments)).joined e = .error x ∧
      (Field.list names).fragments e = .error y ∧ (Field.list names).joined e = .error y) ∨
    ∃ (texts : List String) (f : Fragment),
      Forall₂ (fun name text => quoteAliased e name name.toList = .ok text) names texts ∧
      (∀ field ∈ [Field.text (",".intercalate segments), .list names],
        field.fragments e = .ok (texts.map .ofText) ∧ field.joined e = .ok f) ∧
      ∀ layout depth, f.render layout depth = .ok (", ".intercalate texts) := by
  rcases (fragments_text_alike e hne hnames hpadded).eq_or_errors with
    ⟨fs, htext, hlist⟩ | ⟨x, y, hkind, htext, hlist⟩
  · obtain ⟨texts, htexts, rfl⟩ := exists_texts_of_fragments hne hlist
    have hsome : texts ≠ [] := by
      rintro rfl
      cases htexts
      exact hne rfl
    obtain ⟨f, hjoined, hrender⟩ := exists_joined (e := e) hsome
    refine .inr ⟨texts, f, htexts, ?_, hrender⟩
    intro field hfield
    simp only [List.mem_cons, List.not_mem_nil, or_false] at hfield
    rcases hfield with rfl | rfl
    · exact ⟨htext, hjoined _ htext⟩
    · exact ⟨hlist, hjoined _ hlist⟩
  · refine .inl ⟨x, y, hkind, htext, ?_, hlist, ?_⟩
    · rw [joined, htext]
      rfl
    · rw [joined, hlist]
      rfl

def bookNames : List String := ["\"title, short\" AS t", "b.\"it's\"", "price"]

theorem book_names_alike :
    (∀ name ∈ bookNames, SelfContained name) ∧
    ((Field.text "\"title, short\" AS t , b.\"it's\",\tprice").joined .mysql >>=
      fun f => f.render .compact 0) =
      .ok "\x60title, short\x60 AS \x60t\x60, \x60b\x60.\x60it's\x60, \x60price\x60" := by
  have hnames : ∀ name ∈ bookNames, SelfContained name := by decide +kernel
  have hpadded : Forall₂ Padded bookNames
      ["\"title, short\" AS t ", " b.\"it's\"", "\tprice"] :=
    .cons ⟨"", " ", by decide, by decide, by decide +kernel⟩
      (.cons ⟨" ", "", by decide, by decide, by decide +kernel⟩
        (.cons ⟨"\t", "", by decide, by decide, by decide +kernel⟩ .nil))
  have htext : ",".intercalate ["\"title, short\" AS t ", " b.\"it's\"", "\tprice"] =
      "\"title, short\" AS t , b.\"it's\",\tprice" := by decide +kernel
  have hlist : ((Field.list bookNames).joined .mysql >>= fun f => f.render .compact 0) =
      .ok "\x60title, short\x60 AS \x60t\x60, \x60b\x60.\x60it's\x60, \x60price\x60" :=
    Outcome.eq_ok_of_toOption (by decide +kernel)
  refine ⟨hnames, ?_⟩
  have halike := text_alike_list .mysql (by decide) hnames hpadded
  rw [htext] at halike
  rcases halike with ⟨x, y, -, -, -, -, hfail⟩ | ⟨texts, f, -, hsame, -⟩
  · rw [hfail] at hlist
    cases hlist
  · rw [(hsame (.list bookNames) (by simp)).2] at hlist
    rw [(hsame (.text _) (by simp)).2]
    exact hlist

end SqlBuilder.Field
