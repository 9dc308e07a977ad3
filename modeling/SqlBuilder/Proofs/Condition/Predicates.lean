import Mathlib.Data.List.Forall2
import SqlBuilder.Proofs.Render
import SqlBuilder.Proofs.Condition.Scan
import SqlBuilder.Proofs.Condition.Chain

/-!
# The meaning of predicate lists

The text of a predicate list is read back as the chain of its conditions, so it means
them combined from the right.
-/
namespace SqlBuilder.Condition

open Lexer

theorem depthAfter_blank {t : Token} (h : isBlank t = true) (d : Nat) :
    depthAfter d t = some d := by
  have hopen : t ≠ .symbol '(' := by rintro rfl; exact absurd h (by decide)
  have hclose : t ≠ .symbol ')' := by rintro rfl; exact absurd h (by decide)
  rw [depthAfter, if_neg hopen, if_neg hclose]

theorem nesting_cons (d : Nat) (t : Token) (ts : List Token) :
    nesting d (t :: ts) = (depthAfter d t).bind fun d => nesting d ts := List.foldlM_cons

theorem nesting_append (d : Nat) (ts us : List Token) :
    nesting d (ts ++ us) = (nesting d ts).bind fun d => nesting d us := List.foldlM_append

theorem nesting_dropWhile (d : Nat) (ts : List Token) :
    nesting d (ts.dropWhile isBlank) = nesting d ts := by
  induction ts with
  | nil => rfl
  | cons t ts ih =>
    by_cases h : isBlank t = true
    · rw [List.dropWhile_cons_of_pos h, ih, nesting_cons, depthAfter_blank h, Option.bind_some]
    · rw [List.dropWhile_cons_of_neg h]

theorem marks_dropWhile (ts rest : List Token) :
    marks .operand (ts.dropWhile isBlank ++ rest) = marks .operand (ts ++ rest) := by
  induction ts with
  | nil => rfl
  | cons t ts ih =>
    by_cases h : isBlank t = true
    · rw [List.dropWhile_cons_of_pos h, ih, List.cons_append, marks, if_pos h]
    · rw [List.dropWhile_cons_of_neg h]

/-- Parentheses that are all closed again are passed over. -/
theorem groups_of_nesting {d n : Nat} {ts : List Token} (h : nesting d ts = some n)
    (rest : List Token) : groups d (ts ++ rest) = groups n rest := by
  induction ts generalizing d with
  | nil =>
    cases h
    rfl
  | cons t ts ih =>
    rw [nesting_cons] at h
    obtain ⟨d', hd', h⟩ := Option.bind_eq_some_iff.mp h
    rw [List.cons_append, groups, hd']
    exact ih h

theorem endsOperand_append {ts : List Token} (h : endsOperand ts = false)
    (rest : List Token) : endsOperand (ts ++ rest) = false := by
  unfold endsOperand at *
  rw [List.dropWhile_append]
  cases hd : ts.dropWhile isBlank with
  | nil => simp [hd] at h
  | cons t us => simpa [hd] using h

theorem groups_append {d : Nat} {ts : List Token} (h : groups d ts = false)
    (rest : List Token) : groups d (ts ++ rest) = false := by
  induction ts generalizing d with
  | nil => exact Bool.noConfusion h
  | cons t ts ih =>
    rw [groups] at h
    rw [List.cons_append, groups]
    cases hd : depthAfter d t with
    | none =>
      rw [hd] at h
      exact endsOperand_append h rest
    | some d' =>
      rw [hd] at h
      exact ih h

namespace Progress

theorem ends?_eq_start {p : Progress} (h : p.Whole) (t : Token) : p.ends? t = start.ends? t := by
  obtain ⟨hdepth, hcases, hranges⟩ := h
  simp [ends?, start, hdepth, hcases, hranges]

theorem run_cons {p q : Progress} {t : Token} {ts : List Token}
    (h : p.run (t :: ts) = some q) : p.ends? t = none ∧ (p.add t).run ts = some q := by
  rw [run] at h
  cases hends : p.ends? t with
  | some m => exact absurd h (by simp [hends])
  | none =>
    rw [hends] at h
    exact ⟨rfl, h⟩

theorem marks_of_run {p q : Progress} {ts : List Token} (h : p.run ts = some q)
    (rest : List Token) : marks (.cond p) (ts ++ rest) = marks (.cond q) rest := by
  induction ts generalizing p with
  | nil =>
    cases h
    rfl
  | cons t ts ih =>
    obtain ⟨hends, hrun⟩ := run_cons h
    rw [List.cons_append, marks, hends]
    exact ih hrun

theorem depthAfter_of_ends? {p : Progress} {t : Token} (h : p.ends? t = none) (d : Nat) :
    depthAfter (d + p.depth) t = some (d + (p.add t).depth) := by
  rw [add, depthAfter, depthAfter]
  by_cases hopen : t = .symbol '('
  · rw [if_pos hopen, if_pos hopen]
    rfl
  · rw [if_neg hopen, if_neg hopen]
    by_cases hclose : t = .symbol ')'
    · have hpos : p.depth ≠ 0 := fun hzero => by simp [ends?, hzero, hclose] at h
      have hpos' : d + p.depth ≠ 0 := by omega
      have hdepth : d + p.depth - 1 = d + (p.depth - 1) := by omega
      rw [if_pos hclose, if_pos hclose, if_neg hpos, if_neg hpos', hdepth]
      rfl
    · rw [if_neg hclose, if_neg hclose]
      rfl

theorem nesting_of_run {p q : Progress} {ts : List Token} (h : p.run ts = some q) (d : Nat) :
    nesting (d + p.depth) ts = some (d + q.depth) := by
  induction ts generalizing p with
  | nil =>
    cases h
    rfl
  | cons t ts ih =>
    obtain ⟨hends, hrun⟩ := run_cons h
    rw [nesting_cons, depthAfter_of_ends? hends]
    exact ih hrun

theorem whole_add_blank {p : Progress} (h : p.Whole) : (p.add (.symbol ' ')).Whole := by
  obtain ⟨hdepth, hcases, hranges⟩ := h
  refine ⟨?_, ?_, ?_⟩
  · rw [add, hdepth]
    rfl
  · simp [add, hdepth, hcases, isWord]
  · simp [add, hdepth, hcases, hranges, isWord]

theorem bare_add_blank (p : Progress) : (p.add (.symbol ' ')).bare = p.bare :=
  List.rdropWhile_concat_pos _ _ _ (by decide)

theorem marks_op {p : Progress} (h : p.Whole) (op : BoolOp) (rest : List Token) :
    marks (.cond p)
        (.symbol ' ' :: .word op.keyword.toList :: .symbol ' ' :: rest) =
      .cond p.bare :: .op op :: marks .operand rest := by
  have hblank : p.ends? (.symbol ' ') = none := by
    rw [ends?_eq_start h]
    decide
  have hop : (p.add (.symbol ' ')).ends? (.word op.keyword.toList) = some (.op op) := by
    rw [ends?_eq_start (whole_add_blank h)]
    cases op <;> decide
  rw [marks, hblank]
  simp only
  rw [marks, hop, bare_add_blank]
  simp only [Mode.after]
  rw [marks, if_pos (by decide)]

theorem marks_closing {p : Progress} (h : p.Whole) (rest : List Token) :
    marks (.cond p) (.symbol ')' :: rest) = .cond p.bare :: .closing :: marks .closed rest := by
  have hends : p.ends? (.symbol ')') = some .closing := by
    rw [ends?_eq_start h]
    rfl
  rw [marks, hends]
  rfl

end Progress

theorem marks_of_run_start {t : Token} {us : List Token} {p : Progress}
    (hblank : isBlank t = false) (hgroup : ¬(t = .symbol '(' && groups 0 us) = true)
    (h : Progress.start.run (t :: us) = some p) (rest : List Token) :
    marks .operand (t :: us ++ rest) = marks (.cond p) rest := by
  have hgroup' : ¬(t = .symbol '(' && groups 0 (us ++ rest)) = true := by
    by_cases hopen : t = .symbol '('
    · simp only [hopen, decide_true, Bool.true_and, Bool.not_eq_true] at hgroup ⊢
      exact groups_append hgroup rest
    · simp [hopen]
  obtain ⟨hends, hrun⟩ := Progress.run_cons h
  rw [List.cons_append, marks, if_neg (by simp [hblank]), if_neg hgroup', hends]
  exact Progress.marks_of_run hrun rest

/-- A text that is one condition is read as that condition before more text. -/
theorem exists_of_condition? {ts cond : List Token} (h : condition? ts = some cond) :
    ∃ p : Progress, p.Whole ∧ p.bare = cond ∧ (∀ d, nesting d ts = some d) ∧
      ∀ rest, marks .operand (ts ++ rest) = marks (.cond p) rest := by
  rw [condition?] at h
  cases hts : ts.dropWhile isBlank with
  | nil => simp [hts] at h
  | cons t us =>
    have hblank : isBlank t = false := by
      have hhead := List.head_dropWhile_not isBlank (l := ts) (by simp [hts])
      simpa [hts] using hhead
    simp only [hts] at h
    by_cases hgroup : (t = .symbol '(' && groups 0 us) = true
    · rw [if_pos hgroup] at h
      exact absurd h (by simp)
    · rw [if_neg hgroup] at h
      cases hrun : Progress.start.run (t :: us) with
      | none => simp [hrun] at h
      | some p =>
        simp only [hrun, Option.ite_none_right_eq_some, Option.some.injEq] at h
        obtain ⟨hwhole, hbare⟩ := h
        refine ⟨p, hwhole, hbare, fun d => ?_, fun rest => ?_⟩
        · have hnesting := Progress.nesting_of_run hrun d
          rw [hwhole.1] at hnesting
          rw [← nesting_dropWhile, hts]
          exact hnesting
        · rw [← marks_dropWhile, hts]
          exact marks_of_run_start hblank hgroup hrun rest

/-- The text before a closing parenthesis is read as a level, and closes what it opens. -/
structure Reads (e : Engine) (cs : List Char) (l : Level (List Token)) : Prop where
  closed : Closed e cs
  nesting_eq : ∀ d, nesting d (tokens e cs) = some d
  marks_eq : ∀ rest, marks .operand (tokens e cs ++ .symbol ')' :: rest) =
    l.marks ++ .closing :: marks .closed rest

def joiner (op : BoolOp) : String := " " ++ op.keyword ++ " "

theorem separates_joiner (e : Engine) (op : BoolOp) : Separates e (joiner op).toList := by
  cases e <;> cases op <;> decide +kernel

theorem tokens_joiner (e : Engine) (op : BoolOp) :
    tokens e (joiner op).toList = [.symbol ' ', .word op.keyword.toList, .symbol ' '] := by
  cases e <;> cases op <;> decide +kernel

theorem tokens_append_joiner {e : Engine} {cs : List Char} (h : Closed e cs) (op : BoolOp)
    (ds : List Char) :
    tokens e (cs ++ (joiner op).toList ++ ds) =
      tokens e cs ++ (.symbol ' ' :: .word op.keyword.toList :: .symbol ' ' :: tokens e ds) := by
  have hsep := separates_joiner e op
  rw [tokens_append_of_opens (opens_append_separates h hsep), tokens_append_separates h hsep,
    tokens_joiner, List.append_assoc]
  rfl

theorem Atomic.reads {e : Engine} {text : String} {cond : List Token}
    (h : Atomic e text cond) : Reads e text.toList (.last (.cond cond)) := by
  obtain ⟨p, hwhole, hbare, hnesting, hmarks⟩ := exists_of_condition? h.condition
  refine ⟨h.closed, hnesting, fun rest => ?_⟩
  rw [hmarks, p.marks_closing hwhole, hbare]
  rfl

theorem Atomic.reads_more {e : Engine} {text : String} {cond : List Token} {cs : List Char}
    {l : Level (List Token)} (h : Atomic e text cond) (op : BoolOp) (hl : Reads e cs l) :
    Reads e (text.toList ++ (joiner op).toList ++ cs) (.more (.cond cond) op l) := by
  obtain ⟨p, hwhole, hbare, hnesting, hmarks⟩ := exists_of_condition? h.condition
  refine ⟨?_, fun d => ?_, fun rest => ?_⟩
  · exact closed_append_of_opens (opens_append_separates h.closed (separates_joiner e op))
      hl.closed
  · rw [tokens_append_joiner h.closed, nesting_append, hnesting]
    exact hl.nesting_eq d
  · have hop := p.marks_op hwhole op (tokens e cs ++ .symbol ')' :: rest)
    rw [hbare, hl.marks_eq] at hop
    rw [tokens_append_joiner h.closed, List.append_assoc, hmarks]
    exact hop

theorem tokens_grouped {e : Engine} {cs : List Char} (h : Closed e cs) :
    tokens e ('(' :: (cs ++ [')'])) = .symbol '(' :: (tokens e cs ++ [.symbol ')']) := by
  have hopen : Opens e ['('] := by cases e <;> decide
  have hparen : tokens e ['('] = [.symbol '('] := by cases e <;> decide
  have hclose : tokens e [')'] = [.symbol ')'] := by cases e <;> decide
  have hinner : tokens e (cs ++ [')']) = tokens e cs ++ tokens e [')'] :=
    tokens_append_symbol h (by decide)
  have houter : tokens e ('(' :: (cs ++ [')'])) = tokens e ['('] ++ tokens e (cs ++ [')']) :=
    tokens_append_of_opens hopen
  rw [houter, hinner, hparen, hclose]
  rfl

/-- A level in parentheses is one operand, wherever the operand may end. -/
theorem Reads.marks_grouped {e : Engine} {cs : List Char} {l : Level (List Token)}
    (h : Reads e cs l) {rest : List Token} (hrest : endsOperand rest = true) :
    marks .operand (tokens e ('(' :: (cs ++ [')'])) ++ rest) =
      .opening :: (l.marks ++ .closing :: marks .closed rest) := by
  have hgroups : groups 0 (tokens e cs ++ .symbol ')' :: rest) = true := by
    rw [groups_of_nesting (h.nesting_eq 0)]
    exact hrest
  rw [tokens_grouped h.closed, List.cons_append, List.append_assoc, List.singleton_append, marks,
    if_neg (by decide), if_pos (by simp [hgroups]), h.marks_eq]

theorem Reads.nesting_grouped {e : Engine} {cs : List Char} {l : Level (List Token)}
    (h : Reads e cs l) (d : Nat) : nesting d (tokens e ('(' :: (cs ++ [')']))) = some d := by
  rw [tokens_grouped h.closed, nesting_cons]
  show (nesting (d + 1) (tokens e cs ++ [.symbol ')'])) = some d
  rw [nesting_append, h.nesting_eq]
  rfl

theorem Reads.group {e : Engine} {cs : List Char} {l : Level (List Token)}
    (h : Reads e cs l) : Reads e ('(' :: (cs ++ [')'])) (.last (.group l)) := by
  refine ⟨?_, h.nesting_grouped, fun rest => ?_⟩
  · have hclose : Closed e [')'] := closed_of_quoteFree e (by decide)
    have hopen : Opens e ['('] := by cases e <;> decide
    exact closed_append_of_opens hopen (closed_append_symbol h.closed (by decide) hclose)
  · rw [h.marks_grouped rfl]
    have houter : marks .closed (.symbol ')' :: rest) = .closing :: marks .closed rest := by
      rw [marks, if_neg (by decide)]
      rfl
    rw [houter]
    simp [Level.marks, Operand.marks]

/-- The entry is rendered, and as one condition. -/
def Shows (e : Engine) (layout : Layout) (x : Entry) (cond : List Token) : Prop :=
  ∃ ps, x.body = .ok ps ∧ Atomic e (layout.write ps) cond

theorem toList_write_joined (layout : Layout) (ps qs : Pieces) (op : BoolOp) :
    (layout.write (ps ++ .text (joiner op) :: qs)).toList =
      (layout.write ps).toList ++ (joiner op).toList ++ (layout.write qs).toList := by
  simp only [Layout.write_append, Layout.write_cons, Piece.written, String.toList_append,
    List.append_assoc]

theorem toList_write_grouped (layout : Layout) (qs : Pieces) :
    (layout.write (.text "(" :: qs ++ [.text ")"])).toList =
      '(' :: ((layout.write qs).toList ++ [')']) := by
  simp only [List.cons_append, Layout.write_append, Layout.write_cons, Piece.written,
    String.toList_append]
  rfl

/-- The entries are read as the chain of their conditions. -/
theorem reads_predicateTail {e : Engine} {layout : Layout} {x : Entry} {cond : List Token}
    {xs : List Entry} {conds : List (List Token)} (hx : Shows e layout x cond)
    (hxs : List.Forall₂ (Shows e layout) xs conds) :
    ∃ ps, Entry.predicateTail (x :: xs) = .ok ps ∧
      Reads e (layout.write ps).toList (chain (cond, x.op) (conds.zip (xs.map Entry.op))) := by
  induction hxs generalizing x cond with
  | nil =>
    obtain ⟨ps, hps, hatomic⟩ := hx
    exact ⟨ps, hps, hatomic.reads⟩
  | @cons y cond' rest conds hy hrest ih =>
    obtain ⟨ps, hps, hatomic⟩ := hx
    obtain ⟨qs, hqs, hreads⟩ := ih hy
    have hempty : (conds.zip (rest.map Entry.op)).isEmpty = rest.isEmpty := by
      cases hrest <;> rfl
    rw [List.map_cons, List.zip_cons_cons, chain_cons, hempty, Entry.predicateTail, hps, hqs]
    by_cases hgroup : (x.op ≠ y.op && !rest.isEmpty) = true
    · have hmore := hatomic.reads_more x.op hreads.group
      rw [if_pos hgroup]
      refine ⟨ps ++ .text (joiner x.op) :: (.text "(" :: qs ++ [.text ")"]), ?_, ?_⟩
      · rw [List.cons_append, ← List.cons_append, ← List.cons_append, ← List.append_assoc]
        exact if_pos hgroup
      · rwa [toList_write_joined, toList_write_grouped]
    · have hmore := hatomic.reads_more x.op hreads
      rw [if_neg hgroup]
      refine ⟨ps ++ .text (joiner x.op) :: qs, if_neg hgroup, ?_⟩
      rwa [toList_write_joined]

theorem Reads.level?_grouped {e : Engine} {cs : List Char} {x : List Token × BoolOp}
    {xs : List (List Token × BoolOp)} (h : Reads e cs (chain x xs)) {text : String}
    (htext : text.toList = '(' :: (cs ++ [')'])) :
    level? e text = some (.last (.group (chain ((x.1, 0), x.2) (numbered 1 xs)))) := by
  have hmarks : marks .operand (tokens e text.toList) = .opening :: ((chain x xs).marks ++
      [.closing]) := by
    have hgrouped := h.marks_grouped (show endsOperand [] = true from rfl)
    rwa [List.append_nil, ← htext] at hgrouped
  have hnumber : number 0 (.opening :: ((chain x xs).marks ++ [.closing])) =
      (Level.last (.group (chain ((x.1, 0), x.2) (numbered 1 xs)))).marks := by
    rw [number, number_chain]
    rfl
  rw [level?, hmarks, hnumber, read_marks]
  rfl

/-- A predicate list is read back as one level in which all parentheses are closed and each
level has one kind of operator, so it means its conditions combined from the right,
whichever operator binds tighter. -/
theorem predicates_rightNested {e : Engine} {layout : Layout} {depth : Nat}
    {fs : List Fragment} {conds : List (List Token)} (hne : fs ≠ [])
    (hfs : List.Forall₂ (fun f cond => ∃ text, f.render layout depth = .ok text ∧
      Atomic e text cond) fs conds) :
    ∃ out level, renderPredicates fs layout depth = .ok (some out) ∧
      nesting 0 (tokens e out.toList) = some 0 ∧
      level? e out = some level ∧ level.Uniform ∧ level.conds = conds.zipIdx ∧
      ∀ tighter v, level.value tighter v =
        rightNested v (conds.zipIdx.zip (fs.map Fragment.opOrAnd)) := by
  have hshows : List.Forall₂ (Shows e layout) (fs.map (Fragment.entry depth)) conds := by
    rw [List.forall₂_map_left_iff]
    refine hfs.imp fun f cond ⟨text, hrender, hatomic⟩ => ?_
    obtain ⟨ps, hps, rfl⟩ := Fragment.exists_pieces hrender
    exact ⟨ps, hps, hatomic⟩
  have hlen := hfs.length_eq
  have hops : (fs.map (Fragment.entry depth)).map Entry.op = fs.map Fragment.opOrAnd := by
    rw [List.map_map]
    exact List.map_congr_left fun f _ => by cases f; rfl
  cases hfs with
  | nil => exact absurd rfl hne
  | @cons f cond fs conds =>
    rw [List.map_cons, List.forall₂_cons] at hshows
    rw [List.map_cons, List.map_cons, List.map_cons, List.cons.injEq] at hops
    obtain ⟨ps, hps, hreads⟩ := reads_predicateTail hshows.1 hshows.2
    rw [hops.1, hops.2] at hreads
    have htext := toList_write_grouped layout ps
    have hzip : ((cond, 0), f.opOrAnd) :: numbered 1 (conds.zip (fs.map Fragment.opOrAnd)) =
        (cond :: conds).zipIdx.zip ((f :: fs).map Fragment.opOrAnd) :=
      numbered_zip 0 (cond :: conds) ((f :: fs).map Fragment.opOrAnd)
    refine ⟨_, _, ?_, ?_, hreads.level?_grouped htext, uniform_chain _ _, ?_, fun tighter v => ?_⟩
    · rw [renderPredicates_eq, fragmentEntries_eq_map, List.map_cons, Entry.predicates, hps]
      rfl
    · rw [htext]
      exact hreads.nesting_grouped 0
    · rw [Level.conds, Operand.conds, conds_chain, hzip]
      exact List.map_fst_zip (by rw [List.length_zipIdx, List.length_map, hlen])
    · rw [value_group, value_chain, hzip]

def mixedPredicates : List Fragment :=
  [⟨[.sql "name = 'x OR y'"], some .and⟩,
   ⟨[.sql "(a + 1) * 2 BETWEEN b AND 9"], some .or⟩,
   ⟨[.sql "id IN ", .sub { Snapshot.empty with table := some "users" }], some .and⟩,
   ⟨[.sql "CASE WHEN p OR q THEN 1 ELSE 0 END"], none⟩]

def mixedConditions : List (List Token) :=
  ["name = 'x OR y'", "(a + 1) * 2 BETWEEN b AND 9", "id IN (SELECT * FROM users)",
   "CASE WHEN p OR q THEN 1 ELSE 0 END"].map fun text => tokens .mysql text.toList

/-- The first condition and either the second one or both others. -/
theorem mixedPredicates_rightNested :
    ∃ out level, renderPredicates mixedPredicates .compact 0 = .ok (some out) ∧
      nesting 0 (tokens .mysql out.toList) = some 0 ∧
      level? .mysql out = some level ∧ level.Uniform ∧ level.conds = mixedConditions.zipIdx ∧
      ∀ tighter v, level.value tighter v =
        rightNested v (mixedConditions.zipIdx.zip [.and, .or, .and, .and]) := by
  apply predicates_rightNested (List.cons_ne_nil _ _)
  refine .cons ⟨_, rfl, ?_⟩ (.cons ⟨_, rfl, ?_⟩ (.cons ⟨_, rfl, ?_⟩ (.cons ⟨_, rfl, ?_⟩ .nil)))
  all_goals decide +kernel

end SqlBuilder.Condition
