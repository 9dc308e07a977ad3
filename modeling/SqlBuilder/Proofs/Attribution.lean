import Mathlib.Data.List.Induction
import SqlBuilder.Proofs.Kept
import SqlBuilder.Proofs.Writes

/-!
# Which call an operator comes from

The operator on a predicate joins it to one that may be added much later. Three sorts of call
set it: the call that adds the predicate, a call that joins the newest predicate of its own list
to what it adds, and a bare connective, which goes to the newest predicate of either list.
-/
namespace SqlBuilder

def Call.Predicates (c : Call) : Prop :=
  c.clause? = some .filter ∨ c.clause? = some .having ∨ ∃ op, c = .connect op

namespace Statement

variable {s : Statement} {c : Call} {k k' : ClauseKind} {own op : BoolOp}
  {calls since after : List Call} {d : Dialect}

/-- The calls that add to a clause, each with the calls after it. -/
def additions (k : ClauseKind) : List Call → List (Call × List Call)
  | [] => []
  | c :: calls =>
    if c.clause? = some k then (c, calls) :: additions k calls else additions k calls

def newest? (calls : List Call) : Option ClauseKind := (calls.filterMap Call.clause?).getLast?

/-- A call sets the operator of a predicate added before it to clause `k`; `since` are the calls
between the two. -/
inductive Sets (k : ClauseKind) (since : List Call) : Call → BoolOp → Prop where
  | rejoined {c : Call} {op : BoolOp} : c.rejoins? = some (k, op) →
      (∀ b ∈ since, b.clause? ≠ some k) → Sets k since c op
  | connected {op : BoolOp} : (∀ b ∈ since, b.clause? = none) → Sets k since (.connect op) op

/-- The operator that a predicate of clause `k` has once the calls `after` it are made: the one
set last, or its own if none of them sets it. -/
inductive LastSet (k : ClauseKind) (own : BoolOp) (after : List Call) : BoolOp → Prop where
  | own : (∀ since c rest op, after = since ++ c :: rest → ¬Sets k since c op) →
      LastSet k own after own
  | set {since : List Call} {c : Call} {rest : List Call} {op : BoolOp} :
      after = since ++ c :: rest → Sets k since c op →
      (∀ since' c' rest' op', rest = since' ++ c' :: rest' →
        ¬Sets k (since ++ c :: since') c' op') →
      LastSet k own after op

theorem Sets.isNewest (h : Sets k since c op) : ∀ b ∈ since, b.clause? ≠ some k := by
  cases h with
  | rejoined _ hsince => exact hsince
  | connected hsince =>
    intro b hb
    rw [hsince b hb]
    exact Option.some_ne_none k |>.symm

theorem LastSet.nil : LastSet k own [] own :=
  .own fun since c rest op h => absurd h.symm (List.append_ne_nil_of_right_ne_nil since (by simp))

theorem LastSet.snoc_of_sets (h : Sets k after c op) : LastSet k own (after ++ [c]) op := by
  refine .set rfl h fun since' c' rest' op' hnil => ?_
  exact absurd hnil.symm (List.append_ne_nil_of_right_ne_nil since' (by simp))

theorem split_snoc {b : Call} {before rest : List Call} (h : calls ++ [c] = before ++ b :: rest) :
    (before = calls ∧ b = c ∧ rest = []) ∨
      ∃ rest', rest = rest' ++ [c] ∧ calls = before ++ b :: rest' := by
  rcases List.eq_nil_or_concat rest with rfl | ⟨rest', x, rfl⟩
  · obtain ⟨hbefore, hb⟩ := List.append_inj' h rfl
    cases hb
    exact .inl ⟨hbefore.symm, rfl, rfl⟩
  · rw [List.concat_eq_append, ← List.cons_append, ← List.append_assoc] at h
    obtain ⟨hcalls, hx⟩ := List.append_inj' h rfl
    cases hx
    exact .inr ⟨rest', List.concat_eq_append, hcalls⟩

theorem LastSet.snoc_of_not (h : LastSet k own after op) (hnot : ∀ op', ¬Sets k after c op') :
    LastSet k own (after ++ [c]) op := by
  cases h with
  | own hnone =>
    refine .own fun since c' rest op' hsplit => ?_
    obtain ⟨rfl, rfl, -⟩ | ⟨rest', -, hafter⟩ := split_snoc hsplit
    · exact hnot op'
    · exact hnone since c' rest' op' hafter
  | @set since c' rest _ hafter hsets hlast =>
    subst hafter
    have hafter : since ++ c' :: rest ++ [c] = since ++ c' :: (rest ++ [c]) := by simp
    refine .set hafter hsets fun since' c'' rest' op' hsplit => ?_
    obtain ⟨rfl, rfl, -⟩ | ⟨rest'', -, hrest⟩ := split_snoc hsplit
    · exact hnot op'
    · exact hlast since' c'' rest'' op' hrest

theorem additions_snoc (k : ClauseKind) (calls : List Call) (c : Call) :
    additions k (calls ++ [c]) =
      (additions k calls).map (fun p => (p.1, p.2 ++ [c])) ++
        if c.clause? = some k then [(c, [])] else [] := by
  induction calls with
  | nil => simp [additions]
  | cons b calls ih =>
    rw [List.cons_append, additions, additions, ih]
    split <;> simp

theorem exists_of_mem_additions {p : Call × List Call} (h : p ∈ additions k calls) :
    p.1.clause? = some k ∧ ∃ before, calls = before ++ p.1 :: p.2 := by
  induction calls with
  | nil => cases h
  | cons b calls ih =>
    rw [additions] at h
    split at h
    · rename_i hb
      rcases List.mem_cons.mp h with rfl | h
      · exact ⟨hb, [], rfl⟩
      · obtain ⟨hclause, before, rfl⟩ := ih h
        exact ⟨hclause, b :: before, rfl⟩
    · obtain ⟨hclause, before, rfl⟩ := ih h
      exact ⟨hclause, b :: before, rfl⟩

theorem additions_eq_nil : additions k calls = [] ↔ ∀ c ∈ calls, c.clause? ≠ some k := by
  induction calls with
  | nil => simp [additions]
  | cons c calls ih =>
    rw [additions, List.forall_mem_cons]
    split
    · rename_i hc
      simp [hc]
    · rename_i hc
      simp [hc, ih]

/-- Only the last addition to a clause has none after it. -/
theorem additions_eq_snoc {xs : List (Call × List Call)} {p : Call × List Call}
    (h : additions k calls = xs ++ [p]) :
    (∀ b ∈ p.2, b.clause? ≠ some k) ∧ ∀ q ∈ xs, ∃ b ∈ q.2, b.clause? = some k := by
  induction calls generalizing xs with
  | nil => exact absurd h.symm (by simp [additions])
  | cons c calls ih =>
    rw [additions] at h
    split at h
    · cases xs with
      | nil =>
        obtain ⟨rfl, hnil⟩ := List.cons.inj h
        exact ⟨additions_eq_nil.mp hnil, by simp⟩
      | cons q xs =>
        obtain ⟨rfl, htail⟩ := List.cons.inj h
        obtain ⟨hlast, hxs⟩ := ih htail
        refine ⟨hlast, List.forall_mem_cons.mpr ⟨?_, hxs⟩⟩
        have hp : p ∈ additions k calls := by simp [htail]
        obtain ⟨hclause, before, hcalls⟩ := exists_of_mem_additions hp
        exact ⟨p.1, by simp [hcalls], hclause⟩
    · exact ih h

theorem newest_snoc_of_some (h : c.clause? = some k) : newest? (calls ++ [c]) = some k := by
  simp [newest?, h]

theorem newest_snoc_of_none (h : c.clause? = none) : newest? (calls ++ [c]) = newest? calls := by
  simp [newest?, h]

theorem newest_eq_none (h : newest? calls = none) : ∀ c ∈ calls, c.clause? = none := by
  simpa [newest?] using h

theorem newest_append_cons {before : List Call} (hc : c.clause? = some k) :
    newest? (before ++ c :: after) = (newest? after).or (some k) := by
  rw [newest?, List.filterMap_append, List.filterMap_cons_some hc, List.getLast?_append,
    List.getLast?_cons, newest?]
  cases (after.filterMap Call.clause?).getLast? <;> rfl

theorem additions_of_none (k : ClauseKind) (h : newest? calls = none) :
    additions k calls = [] := by
  rw [additions_eq_nil]
  intro c hc
  rw [newest_eq_none h c hc]
  exact Option.some_ne_none k |>.symm

theorem newest_of_mem_additions {p : Call × List Call} (h : p ∈ additions k calls)
    (hnone : ∀ b ∈ p.2, b.clause? = none) : newest? calls = some k := by
  obtain ⟨hclause, before, rfl⟩ := exists_of_mem_additions h
  have hnewest : newest? p.2 = none := by simpa [newest?] using hnone
  rw [newest_append_cons hclause, hnewest]
  rfl

theorem clause_of_newest {ps : List (Call × List Call)} {p : Call × List Call}
    (h : additions k calls = ps ++ [p]) (hnewest : newest? calls = some k) :
    ∀ b ∈ p.2, b.clause? = none := by
  have hmem : p ∈ additions k calls := by simp [h]
  obtain ⟨hclause, before, rfl⟩ := exists_of_mem_additions hmem
  rw [newest_append_cons hclause] at hnewest
  apply newest_eq_none
  cases hafter : newest? p.2 with
  | none => rfl
  | some k' =>
    rw [hafter] at hnewest
    cases hnewest
    obtain ⟨b, hb, hb'⟩ := List.mem_filterMap.mp (List.mem_of_getLast? hafter)
    exact absurd hb' ((additions_eq_snoc h).1 b hb)

/-- An entry of a clause is the predicate that its call adds by itself, with the operator set
last. -/
def Entry (d : Dialect) (k : ClauseKind) (p : Call × List Call) (f : Fragment) : Prop :=
  ∃ own op, ((new d).apply p.1).state.clause k = [own] ∧ LastSet k p.1.ownOp p.2 op ∧
    f = own.withOp op

section Entries

variable {ps : List (Call × List Call)} {fs : List Fragment}

theorem entries_kept (h : List.Forall₂ (Entry d k) ps fs)
    (hnot : ∀ p ∈ ps, ∀ op, ¬Sets k p.2 c op) :
    List.Forall₂ (Entry d k) (ps.map fun p => (p.1, p.2 ++ [c])) fs := by
  induction h with
  | nil => exact .nil
  | cons hentry _ ih =>
    rw [List.forall_mem_cons] at hnot
    obtain ⟨own, op, hown, hlast, rfl⟩ := hentry
    exact .cons ⟨own, op, hown, hlast.snoc_of_not hnot.1, rfl⟩ (ih hnot.2)

theorem clause_setLastOp_self (view : Snapshot) (k : ClauseKind) (op : BoolOp) :
    (view.setLastOp k op).clause k =
      (view.clause k).dropLast ++ ((view.clause k).getLast?.map (·.withOp op)).toList := by
  rw [Snapshot.setLastOp]
  cases hlast : (view.clause k).getLast? with
  | none =>
    rw [List.getLast?_eq_none_iff] at hlast
    simp [hlast]
  | some f => simp

theorem entries_set {view : Snapshot}
    (h : List.Forall₂ (Entry d k) (additions k calls) (view.clause k))
    (hsets : ∀ ps p, additions k calls = ps ++ [p] → Sets k p.2 c op) :
    List.Forall₂ (Entry d k) ((additions k calls).map fun p => (p.1, p.2 ++ [c]))
      ((view.setLastOp k op).clause k) := by
  rw [clause_setLastOp_self]
  rcases List.eq_nil_or_concat (additions k calls) with hnil | ⟨ps, p, hsnoc⟩
  · rw [hnil, List.forall₂_nil_left_iff] at h
    rw [hnil, h]
    exact .nil
  · rw [List.concat_eq_append] at hsnoc
    have hlast := hsets ps p hsnoc
    have hearlier : ∀ q ∈ ps, ∀ op, ¬Sets k q.2 c op := by
      intro q hq op hsetsq
      obtain ⟨b, hb, hclause⟩ := (additions_eq_snoc hsnoc).2 q hq
      exact hsetsq.isNewest b hb hclause
    rw [hsnoc] at h ⊢
    obtain ⟨fs, f, hfs, hps, hp⟩ := Outcome.exists_snoc_of_forall₂ h
    obtain ⟨own, op', hown, -, rfl⟩ := hp
    rw [hfs, List.map_append, List.dropLast_concat, List.getLast?_concat]
    exact List.rel_append (entries_kept hps hearlier)
      (.cons ⟨own, op, hown, .snoc_of_sets hlast, rfl⟩ .nil)

end Entries

theorem not_sets_of_clause (hclause : c.clause? = some k) (hne : k' ≠ k) :
    ¬Sets k' since c op := by
  intro h
  cases h with
  | rejoined hrejoins _ =>
    rw [clause_of_rejoins hrejoins] at hclause
    exact hne (Option.some.inj hclause)
  | connected _ => cases hclause

theorem clause_pushPredicate_self (s : Statement) (k : ClauseKind) (f : Fragment) (op : BoolOp) :
    (s.pushPredicate k f op).state.clause k = s.state.clause k ++ [f.withOp op] :=
  Snapshot.clause_push_self _ _ _

theorem clause_pushPredicate_of_ne (s : Statement) (f : Fragment) (op : BoolOp) (hne : k' ≠ k) :
    (s.pushPredicate k f op).state.clause k' = s.state.clause k' :=
  Snapshot.clause_setClause_of_ne _ _ hne

theorem clause_rejoined_of_ne (s : Statement) (hclause : c.clause? = some k) (hne : k' ≠ k) :
    (s.rejoined c).state.clause k' = s.state.clause k' := by
  rw [rejoined]
  split
  · rename_i k'' op hrejoins
    rw [clause_of_rejoins hrejoins] at hclause
    cases hclause
    exact Snapshot.clause_setLastOp_of_ne _ _ hne
  · rfl

theorem entries_rejoined (hclause : c.clause? = some k)
    (h : List.Forall₂ (Entry d k) (additions k calls) (s.state.clause k)) :
    List.Forall₂ (Entry d k) ((additions k calls).map fun p => (p.1, p.2 ++ [c]))
      ((s.rejoined c).state.clause k) := by
  cases hrejoins : c.rejoins? with
  | none =>
    rw [rejoined_of_none hrejoins]
    refine entries_kept h fun p _ op hsets => ?_
    cases hsets with
    | rejoined hsome _ => exact absurd (hrejoins.symm.trans hsome) (by simp)
    | connected _ => cases hclause
  | some target =>
    obtain ⟨k', op⟩ := target
    rw [clause_of_rejoins hrejoins] at hclause
    cases hclause
    rw [rejoined, hrejoins]
    exact entries_set h fun ps p hsnoc => .rejoined hrejoins (additions_eq_snoc hsnoc).1

theorem clause_rejoined_eq_nil (h : s.state.clause k = []) (c : Call) :
    (s.rejoined c).state.clause k = [] := by
  rw [rejoined]
  split
  · exact (clause_setLastOp_eq_nil _ _ _ _).mpr h
  · exact h

theorem rejoined_outside (s : Statement) (c : Call) :
    (s.rejoined c).dialect = s.dialect ∧ (s.rejoined c).error = s.error := by
  rw [rejoined]
  split <;> exact ⟨rfl, rfl⟩

/-- A predicate that does not fail is pushed behind the others of its clause; what is pushed is
what the call adds to a new statement. -/
theorem exists_pushed (hk : k = .filter ∨ k = .having) (hclause : c.clause? = some k)
    (herror : s.error = none) (hok : (s.apply c).error = none) :
    ∃ f, s.apply c = (s.rejoined c).pushPredicate k f c.ownOp ∧
      ((new s.dialect).apply c).state.clause k = [f.withOp c.ownOp] := by
  obtain ⟨x, hx⟩ := exists_predicate s.engine hk hclause
  have hs := hx s rfl herror
  have hnew := hx (new s.dialect) rfl rfl
  rw [attempt, (rejoined_outside s c).2, herror] at hs
  rw [attempt, (rejoined_outside (new s.dialect) c).2] at hnew
  cases x with
  | error e =>
    rw [hs] at hok
    cases hok
  | ok f =>
    have hempty : (new s.dialect).state.clause k = [] := by
      rcases hk with rfl | rfl <;> rfl
    refine ⟨f, hs, ?_⟩
    rw [hnew]
    refine (clause_pushPredicate_self _ _ _ _).trans ?_
    rw [clause_rejoined_eq_nil hempty, List.nil_append]

/-- What the predicates of a run have come to: each entry is accounted for, and a bare connective
goes to the newest. -/
structure Attributed (d : Dialect) (calls : List Call) (s : Statement) : Prop where
  dialect : s.dialect = d
  error : s.error = none
  entries : ∀ k, List.Forall₂ (Entry d k) (additions k calls) (s.state.clause k)
  newest : ∀ k, newest? calls = some k → s.lastPredicate = some k

namespace Attributed

theorem predicate (h : Attributed d calls s) (hk : k = .filter ∨ k = .having)
    (hclause : c.clause? = some k) (hok : (s.apply c).error = none) :
    Attributed d (calls ++ [c]) (s.apply c) := by
  obtain ⟨f, happly, hown⟩ := exists_pushed hk hclause h.error hok
  rw [h.dialect] at hown
  refine ⟨?_, hok, fun k' => ?_, fun k' hnewest => ?_⟩
  · rw [happly]
    exact (rejoined_outside s c).1.trans h.dialect
  · rw [happly, additions_snoc]
    by_cases hne : k' = k
    · subst hne
      rw [clause_pushPredicate_self, if_pos hclause]
      exact List.rel_append (entries_rejoined hclause (h.entries k'))
        (.cons ⟨_, c.ownOp, hown, .nil, rfl⟩ .nil)
    · have hclause' : c.clause? ≠ some k' := by
        rw [hclause]
        exact fun heq => hne (Option.some.inj heq).symm
      rw [clause_pushPredicate_of_ne _ _ _ hne, clause_rejoined_of_ne s hclause hne,
        if_neg hclause', List.append_nil]
      exact entries_kept (h.entries k') fun p _ op => not_sets_of_clause hclause hne
  · rw [newest_snoc_of_some hclause] at hnewest
    rw [happly]
    exact hnewest

theorem connect_of_none (h : Attributed d calls s) (op : BoolOp) (hnone : newest? calls = none) :
    s.apply (.connect op) = s := by
  have hentries := h.entries (s.lastPredicate.getD .filter)
  rw [additions_of_none _ hnone, List.forall₂_nil_left_iff] at hentries
  have hstate : s.state.setLastOp (s.lastPredicate.getD .filter) op = s.state := by
    rw [Snapshot.setLastOp, hentries]
    rfl
  rw [apply, Statement.connect, setLastOp, hstate]

theorem connect_of_some (h : Attributed d calls s) (op : BoolOp) (hsome : newest? calls = some k) :
    s.apply (.connect op) = s.setLastOp k op := by
  rw [apply, Statement.connect, h.newest k hsome]
  rfl

theorem connect (h : Attributed d calls s) (op : BoolOp) :
    Attributed d (calls ++ [.connect op]) (s.apply (.connect op)) := by
  refine ⟨h.dialect, h.error, fun k => ?_, fun k hnewest => ?_⟩
  · have hclause : (Call.connect op).clause? ≠ some k := Option.some_ne_none k |>.symm
    rw [additions_snoc, if_neg hclause, List.append_nil]
    cases hnewest : newest? calls with
    | none =>
      rw [h.connect_of_none op hnewest]
      exact entries_kept (h.entries k) fun p hp =>
        absurd (additions_of_none k hnewest ▸ hp) (by simp)
    | some k' =>
      rw [h.connect_of_some op hnewest]
      by_cases hne : k = k'
      · subst hne
        exact entries_set (h.entries k) fun ps p hsnoc =>
          .connected (clause_of_newest hsnoc hnewest)
      · have hother : (s.setLastOp k' op).state.clause k = s.state.clause k :=
          Snapshot.clause_setLastOp_of_ne _ _ hne
        rw [hother]
        refine entries_kept (h.entries k) fun p hp op' hsets => ?_
        cases hsets with
        | rejoined hrejoins _ => cases hrejoins
        | connected hnone =>
          rw [newest_of_mem_additions hp hnone] at hnewest
          exact hne (Option.some.inj hnewest)
  · rw [newest_snoc_of_none rfl] at hnewest
    exact h.newest k hnewest

theorem apply (h : Attributed d calls s) (hc : c.Predicates) (hok : (s.apply c).error = none) :
    Attributed d (calls ++ [c]) (s.apply c) := by
  obtain hfilter | hhaving | ⟨op, rfl⟩ := hc
  · exact h.predicate (.inl rfl) hfilter hok
  · exact h.predicate (.inr rfl) hhaving hok
  · exact h.connect op

theorem clause_connect (h : Attributed d calls s) (op : BoolOp) (hne : newest? calls ≠ some k) :
    (s.apply (.connect op)).state.clause k = s.state.clause k := by
  cases hnewest : newest? calls with
  | none => rw [h.connect_of_none op hnewest]
  | some k' =>
    rw [h.connect_of_some op hnewest]
    refine Snapshot.clause_setLastOp_of_ne _ _ fun heq => hne ?_
    rw [hnewest, heq]

end Attributed

theorem ne_reset_of_predicates (hc : c.Predicates) : c ≠ .reset := by
  rintro rfl
  obtain h | h | ⟨op, h⟩ := hc <;> cases h

theorem Attributed.nil (hempty : ∀ k, s.state.clause k = []) (herror : s.error = none) :
    Attributed s.dialect [] s := by
  refine ⟨rfl, herror, fun k => ?_, fun k h => by cases h⟩
  rw [hempty]
  exact .nil

theorem Attributed.run (h : Attributed d [] s) (hcalls : ∀ c ∈ calls, c.Predicates)
    (hok : (s.run calls).error = none) : Attributed d calls (s.run calls) := by
  -- From the end, since what a call sets depends on the calls before it.
  induction calls using List.reverseRecOn with
  | nil => exact h
  | append_singleton calls c ih =>
    rw [List.forall_mem_append, List.forall_mem_singleton] at hcalls
    rw [run_append] at hok ⊢
    have hreset : Call.reset ∉ [c] := by simpa using (ne_reset_of_predicates hcalls.2).symm
    exact (ih hcalls.1 (error_of_run hreset hok)).apply hcalls.2 hok

theorem dropLast_prefix_setLastOp (view : Snapshot) (k k' : ClauseKind) (op : BoolOp) :
    (view.clause k).dropLast <+: (view.setLastOp k' op).clause k := by
  by_cases hne : k = k'
  · subst hne
    rw [clause_setLastOp_self]
    exact List.prefix_append _ _
  · rw [Snapshot.clause_setLastOp_of_ne _ _ hne]
    exact List.dropLast_prefix _

/-- No call changes an entry that is not the newest of its clause. -/
theorem dropLast_prefix_apply (hc : c.Predicates) (herror : s.error = none)
    (hok : (s.apply c).error = none) (k : ClauseKind) :
    (s.state.clause k).dropLast <+: (s.apply c).state.clause k := by
  have hpredicate {k' : ClauseKind} (hk : k' = .filter ∨ k' = .having)
      (hclause : c.clause? = some k') :
      (s.state.clause k).dropLast <+: (s.apply c).state.clause k := by
    obtain ⟨f, happly, -⟩ := exists_pushed hk hclause herror hok
    have hrejoined : (s.state.clause k).dropLast <+: (s.rejoined c).state.clause k := by
      rw [rejoined]
      split
      · exact dropLast_prefix_setLastOp _ _ _ _
      · exact List.dropLast_prefix _
    rw [happly]
    refine hrejoined.trans ?_
    by_cases hne : k = k'
    · subst hne
      rw [clause_pushPredicate_self]
      exact List.prefix_append _ _
    · have hother := clause_pushPredicate_of_ne (s.rejoined c) f c.ownOp hne
      exact ⟨[], by rw [List.append_nil, hother]⟩
  obtain hfilter | hhaving | ⟨op, rfl⟩ := hc
  · exact hpredicate (.inl rfl) hfilter
  · exact hpredicate (.inr rfl) hhaving
  · exact dropLast_prefix_setLastOp _ _ _ _

/-- Over a whole run of predicates and bare connectives, from a statement with no clauses to the
end without an error: each list holds the predicates added to it in the order of the calls, each
as its call adds it to a new statement, with the operator that was set last. On the way no call
changes an entry but the newest of a list, and a bare connective changes only the list that was
added to last; before any predicate it changes nothing. -/
theorem operators_come_from_last_call (s : Statement) (calls : List Call)
    (hempty : ∀ k, s.state.clause k = []) (hcalls : ∀ c ∈ calls, c.Predicates)
    (herror : (s.run calls).error = none) :
    ∃ view, (s.run calls).toStructured = .ok view ∧
      (∀ k, List.Forall₂ (Entry s.dialect k) (additions k calls) (view.clause k)) ∧
      ∀ before c after, calls = before ++ c :: after →
        (∀ k, ((s.run before).state.clause k).dropLast <+:
          ((s.run before).apply c).state.clause k) ∧
        ∀ op, c = .connect op →
          (∀ k, newest? before ≠ some k →
            ((s.run before).apply c).state.clause k = (s.run before).state.clause k) ∧
          (newest? before = none → (s.run before).apply c = s.run before) := by
  have hreset {cs : List Call} (hsub : cs ⊆ calls) : Call.reset ∉ cs :=
    fun h => ne_reset_of_predicates (hcalls _ (hsub h)) rfl
  have hstart : Attributed s.dialect [] s :=
    .nil hempty (error_of_run (hreset (List.Subset.refl _)) herror)
  refine ⟨(s.run calls).state, ?_, (hstart.run hcalls herror).entries, ?_⟩
  · rw [toStructured, checked, herror]
  · rintro before c after rfl
    rw [run_append, run_cons] at herror
    have hok := error_of_run (hreset (by simp)) herror
    have hone : ((s.run before).run [c]).error = none := hok
    have hbefore := error_of_run (hreset (by simp)) hone
    have hc := hcalls c (by simp)
    have hattributed := hstart.run (fun b hb => hcalls b (by simp [hb])) hbefore
    refine ⟨dropLast_prefix_apply hc hbefore hok, ?_⟩
    rintro op rfl
    exact ⟨fun k hne => hattributed.clause_connect op hne, hattributed.connect_of_none op⟩

def mixedConnectives : List Call :=
  [.connect .or, .filter "a = ?" [.int 1], .having "n > ?" [.int 2], .connect .or,
    .orFilter "b = ?" [.int 3], .having "n < ?" [.int 4], .andFilter "c = ?" [.int 5],
    .connect .or, .orHaving "n = ?" [.int 6], .connect .and]

theorem mixedConnectives_attributed :
    ((new .mysql).run mixedConnectives).error = none ∧
    ∃ view, ((new .mysql).run mixedConnectives).toStructured = .ok view ∧
      List.Forall₂ (Entry .mysql .filter) (additions .filter mixedConnectives)
        (view.clause .filter) ∧
      (view.clause .filter).map Fragment.op = [some .or, some .and, some .or] ∧
      (view.clause .having).map Fragment.op = [some .or, some .or, some .and] := by
  have hempty : ∀ k, (new .mysql).state.clause k = [] := fun k => by cases k <;> rfl
  have hcalls : ∀ c ∈ mixedConnectives, c.Predicates := by
    simp [mixedConnectives, Call.Predicates, Call.clause?]
  have herror : ((new .mysql).run mixedConnectives).error = none :=
    Option.isNone_iff_eq_none.mp (by decide +kernel)
  obtain ⟨view, hview, hentries, -⟩ :=
    operators_come_from_last_call (new .mysql) mixedConnectives hempty hcalls herror
  refine ⟨herror, view, hview, hentries .filter, ?_⟩
  rw [toStructured, checked, herror] at hview
  cases hview
  exact ⟨by decide +kernel, by decide +kernel⟩

end Statement

end SqlBuilder
