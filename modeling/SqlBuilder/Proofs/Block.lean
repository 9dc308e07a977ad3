import SqlBuilder.Text.Blank
import SqlBuilder.Proofs.Render

/-!
# One statement in two layouts

A rendered statement is a tree of texts, clause boundaries and nested statements. The two
layouts write the same tree and differ only in the blanks at its boundaries.
-/
namespace SqlBuilder

inductive Block where
  | text (s : String)
  | boundary
  /-- A nested statement in parentheses, on lines of its own when it is marked so. -/
  | nested (isSub : Bool) (body : List Block)

namespace Block

mutual

def compact : Block → String
  | .text s => s
  | .boundary => " "
  | .nested _ body => "(" ++ compactAll body ++ ")"

def compactAll : List Block → String
  | [] => ""
  | b :: bs => compact b ++ compactAll bs

end

mutual

def pretty (depth : Nat) : Block → String
  | .text s => s
  | .boundary => Piece.lineBreak depth
  | .nested true body => "(" ++ Piece.lineBreak (depth + 1) ++ prettyAll (depth + 1) body
      ++ Piece.lineBreak depth ++ ")"
  | .nested false body => "(" ++ prettyAll (depth + 1) body ++ ")"

def prettyAll (depth : Nat) : List Block → String
  | [] => ""
  | b :: bs => pretty depth b ++ prettyAll depth bs

end

/-- A statement on lines of its own, unless it is the outermost. -/
def framed (depth : Nat) (isSub : Bool) (body : Pieces) : Pieces :=
  if isSub && 0 < depth then .edge depth :: body ++ [.edge (depth - 1)] else body

mutual

def pieces (depth : Nat) : Block → Pieces
  | .text s => [.text s]
  | .boundary => [.clause depth]
  | .nested isSub body =>
    .text "(" :: framed (depth + 1) isSub (piecesAll (depth + 1) body) ++ [.text ")"]

def piecesAll (depth : Nat) : List Block → Pieces
  | [] => []
  | b :: bs => pieces depth b ++ piecesAll depth bs

end

theorem piecesAll_append (depth : Nat) (bs cs : List Block) :
    piecesAll depth (bs ++ cs) = piecesAll depth bs ++ piecesAll depth cs := by
  induction bs with
  | nil => simp [piecesAll]
  | cons b bs ih => simp [piecesAll, ih]

mutual

theorem write_compact (depth : Nat) (b : Block) :
    Layout.compact.write (pieces depth b) = compact b := by
  cases b with
  | text s => exact Layout.write_singleton _ _
  | boundary => exact Layout.write_singleton _ _
  | nested isSub body =>
    have hbody := write_compactAll (depth + 1) body
    have hframed : Layout.compact.write
        (framed (depth + 1) isSub (piecesAll (depth + 1) body)) = compactAll body := by
      rw [framed]
      split
      · rw [List.cons_append, Layout.write_cons, Layout.write_append, Layout.write_singleton,
          hbody, ← String.toList_inj]
        simp [Piece.written]
      · exact hbody
    rw [pieces, List.cons_append, Layout.write_cons, Layout.write_append, hframed,
      Layout.write_singleton, compact, String.append_assoc]
    rfl

theorem write_compactAll (depth : Nat) (bs : List Block) :
    Layout.compact.write (piecesAll depth bs) = compactAll bs := by
  cases bs with
  | nil => rfl
  | cons b bs =>
    rw [piecesAll, compactAll, Layout.write_append, write_compact, write_compactAll]

end

mutual

theorem write_pretty (depth : Nat) (b : Block) :
    Layout.pretty.write (pieces depth b) = pretty depth b := by
  cases b with
  | text s => exact Layout.write_singleton _ _
  | boundary => exact Layout.write_singleton _ _
  | nested isSub body =>
    have hbody := write_prettyAll (depth + 1) body
    cases isSub with
    | true =>
      rw [pieces, framed, pretty, if_pos (by simp), List.cons_append, List.cons_append,
        List.cons_append, Layout.write_cons, Layout.write_cons, Layout.write_append,
        Layout.write_append, hbody, Layout.write_singleton, Layout.write_singleton]
      simp only [Piece.written, String.append_assoc, Nat.add_sub_cancel]
    | false =>
      rw [pieces, framed, pretty, if_neg (by simp), List.cons_append, Layout.write_cons,
        Layout.write_append, hbody, Layout.write_singleton]
      simp only [Piece.written, String.append_assoc]

theorem write_prettyAll (depth : Nat) (bs : List Block) :
    Layout.pretty.write (piecesAll depth bs) = prettyAll depth bs := by
  cases bs with
  | nil => rfl
  | cons b bs =>
    rw [piecesAll, prettyAll, Layout.write_append, write_pretty, write_prettyAll]

end

/-- The characters of a text that are not blank. -/
def ink (s : String) : List Char := s.toList.filter fun c => !Text.isBlank c

theorem ink_append (s t : String) : ink (s ++ t) = ink s ++ ink t := by
  simp [ink]

theorem ink_lineBreak (depth : Nat) : ink (Piece.lineBreak depth) = [] := by
  have hblank : ∀ c ∈ '\n' :: List.replicate depth '\t', Text.isBlank c = true := by
    rw [List.forall_mem_cons]
    refine ⟨by decide, fun c hc => ?_⟩
    rw [List.eq_of_mem_replicate hc]
    decide
  rw [ink, Piece.lineBreak, String.toList_ofList, List.filter_eq_nil_iff]
  intro c hc
  simp [hblank c hc]

mutual

theorem ink_pretty (depth : Nat) (b : Block) : ink (pretty depth b) = ink (compact b) := by
  cases b with
  | text s => rfl
  | boundary =>
    rw [pretty, compact, ink_lineBreak]
    decide
  | nested isSub body =>
    have hbody := ink_prettyAll (depth + 1) body
    cases isSub with
    | true =>
      rw [pretty, compact]
      simp only [ink_append, ink_lineBreak, hbody, List.append_nil]
    | false =>
      rw [pretty, compact]
      simp only [ink_append, hbody]

theorem ink_prettyAll (depth : Nat) (bs : List Block) :
    ink (prettyAll depth bs) = ink (compactAll bs) := by
  cases bs with
  | nil => rfl
  | cons b bs =>
    rw [prettyAll, compactAll, ink_append, ink_append, ink_pretty, ink_prettyAll]

end

end Block

mutual

/-- The blocks that a statement may be written as: those of its lines, with a boundary
between any two. -/
inductive StatementBody : Snapshot → List Block → Prop where
  | lines {s : Snapshot} {bs : List Block} : LinesBody s.lines bs → StatementBody s bs

inductive LinesBody : List (List Fragment) → List Block → Prop where
  | none : LinesBody [] []
  | last {fs : List Fragment} {bs : List Block} : LineBody fs bs → LinesBody [fs] bs
  | more {fs gs : List Fragment} {lines : List (List Fragment)} {bs cs : List Block} :
      LineBody fs bs → LinesBody (gs :: lines) cs →
      LinesBody (fs :: gs :: lines) (bs ++ .boundary :: cs)

/-- The fragments in order, with texts before, between and behind them. -/
inductive LineBody : List Fragment → List Block → Prop where
  | none : LineBody [] []
  | glue (text : String) {fs : List Fragment} {bs : List Block} : LineBody fs bs →
      LineBody fs (.text text :: bs)
  | fragment {f : Fragment} {fs : List Fragment} {as bs : List Block} : PartsBody f.parts as →
      LineBody fs bs → LineBody (f :: fs) (as ++ bs)

inductive PartsBody : List Part → List Block → Prop where
  | none : PartsBody [] []
  | sql (text : String) {ps : List Part} {bs : List Block} : PartsBody ps bs →
      PartsBody (.sql text :: ps) (.text text :: bs)
  | sub {s : Snapshot} {body : List Block} {ps : List Part} {bs : List Block} :
      StatementBody s body → PartsBody ps bs →
      PartsBody (.sub s :: ps) (.nested s.isSub body :: bs)

end

open Block

/-- Whenever a statement renders, at whatever depth, its pieces are those of such blocks. -/
def Blocky (s : Snapshot) : Prop :=
  ∀ depth ps, s.pieces depth = .ok ps →
    ∃ bs, StatementBody s bs ∧ ps = framed depth s.isSub (piecesAll depth bs)

theorem partsBody_of_pieces {depth : Nat} {parts : List Part} {ps : Pieces}
    (hsub : ∀ s, .sub s ∈ parts → Blocky s) (h : partsPieces depth parts = .ok ps) :
    ∃ bs, PartsBody parts bs ∧ ps = piecesAll depth bs := by
  induction parts generalizing ps with
  | nil =>
    cases h
    exact ⟨[], .none, rfl⟩
  | cons p parts ih =>
    rw [partsPieces] at h
    obtain ⟨first, hfirst, h⟩ := Outcome.exists_of_bind_eq_ok h
    obtain ⟨rest, hrest, h⟩ := Outcome.exists_of_bind_eq_ok h
    cases h
    obtain ⟨bs, hbs, rfl⟩ := ih (fun s hs => hsub s (List.mem_cons_of_mem _ hs)) hrest
    cases p with
    | sql text =>
      cases hfirst
      exact ⟨.text text :: bs, .sql text hbs, rfl⟩
    | sub s =>
      rw [Part.pieces] at hfirst
      obtain ⟨ps, hps, hfirst⟩ := Outcome.exists_of_bind_eq_ok hfirst
      cases hfirst
      obtain ⟨body, hbody, rfl⟩ := hsub s List.mem_cons_self _ _ hps
      exact ⟨.nested s.isSub body :: bs, .sub hbody hbs, rfl⟩

theorem lineBody_of_line {depth : Nat} {fs : List Fragment} {line : Pieces}
    (hsub : ∀ f ∈ fs, ∀ s, .sub s ∈ f.parts → Blocky s) (h : Snapshot.Line depth fs line) :
    ∃ bs, LineBody fs bs ∧ line = piecesAll depth bs := by
  obtain ⟨parts, hparts, hwoven⟩ := h
  induction hwoven generalizing fs with
  | none =>
    cases hparts
    exact ⟨[], .none, rfl⟩
  | glue text _ ih =>
    obtain ⟨bs, hbs, rfl⟩ := ih hsub hparts
    exact ⟨.text text :: bs, .glue text hbs, rfl⟩
  | part a _ ih =>
    cases hparts with
    | cons ha hparts =>
      rw [List.forall_mem_cons] at hsub
      obtain ⟨bs, hbs, rfl⟩ := ih hsub.2 hparts
      rw [Fragment.pieces_eq] at ha
      obtain ⟨as, has, rfl⟩ := partsBody_of_pieces hsub.1 ha
      exact ⟨as ++ bs, .fragment has hbs, (piecesAll_append depth as bs).symm⟩

theorem linesBody_of_lines {depth : Nat} {fss : List (List Fragment)} {lines : Lines}
    (hsub : ∀ fs ∈ fss, ∀ f ∈ fs, ∀ s, .sub s ∈ f.parts → Blocky s)
    (h : List.Forall₂ (Snapshot.Line depth) fss lines) :
    ∃ bs, LinesBody fss bs ∧ [Piece.clause depth].intercalate lines = piecesAll depth bs := by
  induction h with
  | nil => exact ⟨[], .none, rfl⟩
  | cons hline hrest ih =>
    rw [List.forall_mem_cons] at hsub
    obtain ⟨bs, hbs, rfl⟩ := lineBody_of_line hsub.1 hline
    obtain ⟨cs, hcs, hlines⟩ := ih hsub.2
    cases hrest with
    | nil => exact ⟨bs, .last hbs, List.intercalate_singleton⟩
    | cons _ _ =>
      refine ⟨bs ++ .boundary :: cs, .more hbs hcs, ?_⟩
      rw [List.intercalate_cons_cons, hlines, piecesAll_append, List.append_assoc]
      rfl

theorem mem_lines {s : Snapshot} {fs : List Fragment} (h : fs ∈ s.lines) {f : Fragment}
    (hf : f ∈ fs) : ∃ c, f ∈ s.clause c := by
  have hflat : f ∈ s.lines.flatten := List.mem_flatten_of_mem h hf
  rw [Snapshot.flatten_lines] at hflat
  obtain ⟨c, -, hc⟩ := List.mem_flatMap.mp hflat
  exact ⟨c, hc⟩

theorem blocky (s : Snapshot) : Blocky s := by
  induction s using Snapshot.nesting_induction with
  | step s ih =>
    intro depth ps h
    obtain ⟨lines, hlines, rfl⟩ := Snapshot.lines_of_pieces h
    have hsub : ∀ fs ∈ s.lines, ∀ f ∈ fs, ∀ t, .sub t ∈ f.parts → Blocky t := by
      intro fs hfs f hf
      obtain ⟨c, hc⟩ := mem_lines hfs hf
      exact ih c f hc
    obtain ⟨bs, hbs, hjoined⟩ := linesBody_of_lines hsub hlines
    refine ⟨bs, .lines hbs, ?_⟩
    rw [Lines.join, hjoined]
    rfl

/-- Rendering succeeds in both layouts or fails with one error in both. Where it succeeds
there are blocks, made of the fragments of the statement and of those nested in it, that
both layouts write: on one line with a space at each boundary, or with a line break at each
boundary and tabs for the depth. So the texts differ in blanks only. -/
theorem layouts_agree (s : Snapshot) :
    (∃ e, ∀ layout, s.render layout = .error e) ∨
      ∃ bs, StatementBody s bs ∧ s.render .compact = .ok (compactAll bs) ∧
        s.render .pretty = .ok (prettyAll 0 bs) ∧
        ink (prettyAll 0 bs) = ink (compactAll bs) := by
  cases h : s.pieces 0 with
  | error e =>
    refine .inl ⟨e, fun layout => ?_⟩
    rw [Snapshot.render_eq, h]
    rfl
  | ok ps =>
    obtain ⟨bs, hbs, rfl⟩ := blocky s 0 ps h
    have hpieces : s.pieces 0 = .ok (piecesAll 0 bs) := by
      rw [h, framed, if_neg (by simp)]
    refine .inr ⟨bs, hbs, ?_, ?_, ink_prettyAll 0 bs⟩
    · rw [Snapshot.render_eq, hpieces, ← write_compactAll 0 bs]
      rfl
    · rw [Snapshot.render_eq, hpieces, ← write_prettyAll 0 bs]
      rfl

end SqlBuilder
