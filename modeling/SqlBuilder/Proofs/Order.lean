import SqlBuilder.Proofs.Writes

/-!
# The order of calls

Calls that build a query may change places as long as those of one clause keep their order:
each of them sees nothing of the statement but its own clause.
-/
namespace SqlBuilder.Statement

variable {s t : Statement} {c : Call} {k : ClauseKind} {calls : List Call}

/-- The calls that add to one clause, in their order. -/
def callsOf (k : ClauseKind) (calls : List Call) : List Call :=
  calls.filter fun c => c.clause? = some k

theorem chosen_of_selects (h : c.Selects) : c.chosen? = none ∨ c.chosen? = some .select := by
  obtain ⟨-, k, hk, hinsert, hupdate⟩ := h
  cases c with
  | source | select | selectJson | aggregate => exact .inr rfl
  | insert rows => cases hk; exact absurd rfl hinsert
  | update row => cases hk; exact absurd rfl hupdate
  | delete => cases hk
  | _ => exact .inl rfl

theorem inSession_of_selects (h : c.Selects) : c.InSession := by
  obtain ⟨-, k, hk, -⟩ := h
  cases c with
  | config | table | withAlias | reset => cases hk
  | _ => trivial

theorem ne_reset_of_selects (h : c.Selects) : c ≠ .reset := by
  rintro rfl
  exact inSession_of_selects h

theorem error_apply_iff (hselects : c.Selects) (hdialect : s.dialect = t.dialect)
    (hs : Selecting s) (ht : Selecting t) :
    (s.apply c).error = none ↔ (t.apply c).error = none := by
  obtain ⟨-, k, hc, -⟩ := id hselects
  obtain ⟨x, hx⟩ := fixed_of_selects t.dialect hselects hc
  have hperforms := hx s hdialect hs
  have hperforms' := hx t rfl ht
  cases x with
  | error e =>
    cases hperforms with | failed h =>
    cases hperforms' with | failed h' =>
    rw [h, h']
  | ok g =>
    cases hperforms with | done h =>
    cases hperforms' with | done h' =>
    exact iff_of_true (h.error.trans hs.error) (h'.error.trans ht.error)

/-- A call that succeeds chooses its kind and changes its clause, always in the same way. -/
theorem exists_written (d : Dialect) (hselects : c.Selects) (hc : c.clause? = some k) :
    ∃ g, ∀ s : Statement, s.dialect = d → Selecting s → (s.apply c).error = none →
      Twin (s.apply c) ((s.chosen c).changed k g) := by
  obtain ⟨x, hx⟩ := fixed_of_selects d hselects hc
  cases x with
  | error e =>
    refine ⟨id, fun s hd hs hok => ?_⟩
    cases hx s hd hs with | failed h =>
    rw [h] at hok
    cases hok
  | ok g =>
    refine ⟨g, fun s hd hs _ => ?_⟩
    cases hx s hd hs with | done h =>
    exact h

theorem kind_apply (hselects : c.Selects) (hs : Selecting s) (hok : (s.apply c).error = none) :
    (s.apply c).kind = c.chosen?.or s.kind := by
  obtain ⟨-, k, hc, -⟩ := id hselects
  obtain ⟨g, hg⟩ := exists_written s.dialect hselects hc
  exact (hg s rfl hs hok).kind

theorem Selecting.apply (hs : Selecting s) (hselects : c.Selects)
    (hok : (s.apply c).error = none) : Selecting (s.apply c) := by
  refine ⟨hok, ?_⟩
  rw [kind_apply hselects hs hok]
  rcases chosen_of_selects hselects with h | h <;> rw [h]
  · exact hs.kind
  · exact .inr rfl

/-- Queries that a call on one clause cannot tell apart. -/
structure AgreeOn (k : ClauseKind) (s t : Statement) : Prop where
  dialect : s.dialect = t.dialect
  clause : s.state.clauses.get k = t.state.clauses.get k
  left : Selecting s
  right : Selecting t

/-- On the clause of a call its effect is the same wherever it is made. -/
theorem AgreeOn.apply (h : AgreeOn k s t) (hselects : c.Selects) (hc : c.clause? = some k)
    (hok : (s.apply c).error = none) : AgreeOn k (s.apply c) (t.apply c) := by
  have hok' := (error_apply_iff hselects h.dialect h.left h.right).mp hok
  obtain ⟨g, hg⟩ := exists_written t.dialect hselects hc
  have hs := hg s h.dialect h.left hok
  have ht := hg t rfl h.right hok'
  refine ⟨?_, ?_, h.left.apply hselects hok, h.right.apply hselects hok'⟩
  · rw [hs.dialect, ht.dialect]
    exact h.dialect
  · rw [hs.state, ht.state]
    simp only [changed, chosen, PerClause.get_set_self, h.clause]

theorem AgreeOn.apply_left (h : AgreeOn k s t) (hselects : c.Selects) (hc : c.clause? ≠ some k)
    (hok : (s.apply c).error = none) : AgreeOn k (s.apply c) t := by
  obtain ⟨-, k', hk', -⟩ := id hselects
  obtain ⟨g, hg⟩ := exists_written t.dialect hselects hk'
  have hs := hg s h.dialect h.left hok
  have hne : k ≠ k' := fun heq => hc (heq ▸ hk')
  refine ⟨?_, ?_, h.left.apply hselects hok, h.right⟩
  · rw [hs.dialect]
    exact h.dialect
  · rw [hs.state]
    simp only [changed, PerClause.get_set_of_ne _ _ hne]
    exact h.clause

theorem reset_notMem (hselects : ∀ c ∈ calls, c.Selects) : Call.reset ∉ calls :=
  fun h => ne_reset_of_selects (hselects _ h) rfl

theorem error_run_iff (hs : Selecting s) (hselects : ∀ c ∈ calls, c.Selects) :
    (s.run calls).error = none ↔ ∀ c ∈ calls, (s.apply c).error = none := by
  induction calls generalizing s with
  | nil => simp [hs.error]
  | cons c calls ih =>
    rw [List.forall_mem_cons] at hselects
    obtain ⟨hc, hcalls⟩ := hselects
    rw [run_cons, List.forall_mem_cons]
    by_cases hok : (s.apply c).error = none
    · have hdialect : (s.apply c).dialect = s.dialect :=
        (SameOutside.apply s (inSession_of_selects hc)).dialect.symm
      have hs' := hs.apply hc hok
      rw [ih hs' hcalls]
      have hiff (c' : Call) (h' : c' ∈ calls) := error_apply_iff (hcalls c' h') hdialect hs' hs
      exact ⟨fun h => ⟨hok, fun c' h' => (hiff c' h').mp (h c' h')⟩,
        fun h c' h' => (hiff c' h').mpr (h.2 c' h')⟩
    · exact iff_of_false (fun h => hok (error_of_run (reset_notMem hcalls) h)) fun h => hok h.1

/-- A clause is what its own calls made of it. -/
theorem AgreeOn.run (h : AgreeOn k s t) (hselects : ∀ c ∈ calls, c.Selects)
    (hok : (s.run calls).error = none) :
    AgreeOn k (s.run calls) (t.run (callsOf k calls)) := by
  induction calls generalizing s t with
  | nil => exact h
  | cons c calls ih =>
    rw [List.forall_mem_cons] at hselects
    obtain ⟨hc, hcalls⟩ := hselects
    rw [run_cons] at hok ⊢
    have happly := error_of_run (reset_notMem hcalls) hok
    by_cases hk : c.clause? = some k
    · rw [callsOf, List.filter_cons_of_pos (by simpa using hk), run_cons]
      exact ih (h.apply hc hk happly) hcalls hok
    · rw [callsOf, List.filter_cons_of_neg (by simpa using hk)]
      exact ih (h.apply_left hc hk happly) hcalls hok

theorem Selecting.run (hs : Selecting s) (hselects : ∀ c ∈ calls, c.Selects)
    (hok : (s.run calls).error = none) : Selecting (s.run calls) :=
  (AgreeOn.run (k := .select) ⟨rfl, rfl, hs, hs⟩ hselects hok).left

theorem kind_run (hs : Selecting s) (hselects : ∀ c ∈ calls, c.Selects)
    (hok : (s.run calls).error = none) :
    (s.run calls).kind = some .select ↔
      s.kind = some .select ∨ ∃ c ∈ calls, c.chosen? = some .select := by
  induction calls generalizing s with
  | nil => simp
  | cons c calls ih =>
    rw [List.forall_mem_cons] at hselects
    obtain ⟨hc, hcalls⟩ := hselects
    rw [run_cons] at hok ⊢
    have happly := error_of_run (reset_notMem hcalls) hok
    rw [ih (hs.apply hc happly) hcalls hok, kind_apply hc hs happly]
    rcases chosen_of_selects hc with h | h <;> simp [h]

theorem sameOutside_run (s : Statement) (hselects : ∀ c ∈ calls, c.Selects) :
    SameOutside s (s.run calls) := by
  induction calls generalizing s with
  | nil => exact .refl s
  | cons c calls ih =>
    rw [List.forall_mem_cons] at hselects
    exact (SameOutside.apply s (inSession_of_selects hselects.1)).trans (ih _ hselects.2)

section Reordered

variable {p q : List Call} (hp : ∀ c ∈ p, c.Selects) (hq : ∀ c ∈ q, c.Selects)
  (hsame : ∀ k, callsOf k p = callsOf k q)
include hp hq hsame

theorem mem_iff_of_callsOf : c ∈ p ↔ c ∈ q := by
  constructor
  · intro hc
    obtain ⟨-, k, hk, -⟩ := hp c hc
    have hmem : c ∈ callsOf k p := List.mem_filter.mpr ⟨hc, by simpa using hk⟩
    rw [hsame] at hmem
    exact (List.mem_filter.mp hmem).1
  · intro hc
    obtain ⟨-, k, hk, -⟩ := hq c hc
    have hmem : c ∈ callsOf k q := List.mem_filter.mpr ⟨hc, by simpa using hk⟩
    rw [← hsame] at hmem
    exact (List.mem_filter.mp hmem).1

theorem error_reordered (hs : Selecting s) :
    (s.run p).error = none ↔ (s.run q).error = none := by
  rw [error_run_iff hs hp, error_run_iff hs hq]
  simp only [mem_iff_of_callsOf hp hq hsame]

theorem state_reordered (hs : Selecting s) (hok : (s.run p).error = none) :
    (s.run p).state = (s.run q).state := by
  have hok' := (error_reordered hp hq hsame hs).mp hok
  have hclauses : (s.run p).state.clauses = (s.run q).state.clauses := by
    -- Either run leaves in a clause what the calls of that clause leave there alone.
    refine PerClause.ext_get fun k => ?_
    have hstart : AgreeOn k s s := ⟨rfl, rfl, hs, hs⟩
    rw [(hstart.run hp hok).clause, (hstart.run hq hok').clause, hsame]
  have hkind : (s.run p).kind = (s.run q).kind := by
    have hiff : (s.run p).kind = some .select ↔ (s.run q).kind = some .select := by
      rw [kind_run hs hp hok, kind_run hs hq hok']
      simp only [mem_iff_of_callsOf hp hq hsame]
    rcases (hs.run hp hok).kind with h | h
    · rcases (hs.run hq hok').kind with h' | h'
      · rw [h, h']
      · rw [hiff.mpr h', h']
    · rw [h, hiff.mp h]
  have houtside := (sameOutside_run s hp).symm.trans (sameOutside_run s hq)
  rw [← Snapshot.mk_eta (s.run p).state, ← Snapshot.mk_eta (s.run q).state, hclauses,
    houtside.table, houtside.isSub]
  exact congrArg (Snapshot.mk · _ _ _) hkind

theorem shows_alike_reordered (hs : Selecting s) :
    ((s.run p).error = none ↔ (s.run q).error = none) ∧
    ((s.run p).error = none →
      (s.run p).toStructured = (s.run q).toStructured ∧
        ∀ layout, (s.run p).toSql layout = (s.run q).toSql layout) := by
  have herror := error_reordered hp hq hsame hs
  refine ⟨herror, fun hok => ?_⟩
  have hchecked : (s.run p).checked = (s.run q).checked := by
    rw [checked, checked, hok, herror.mp hok, state_reordered hp hq hsame hs hok]
  refine ⟨hchecked, fun layout => ?_⟩
  rw [toSql, toSql, hchecked]

end Reordered

theorem callsOf_swap {a b : Call} (hne : a.clause? ≠ b.clause?) (k : ClauseKind) :
    callsOf k [a, b] = callsOf k [b, a] := by
  by_cases ha : a.clause? = some k
  · have hb : b.clause? ≠ some k := fun hb => hne (ha.trans hb.symm)
    simp [callsOf, ha, hb]
  · simp [callsOf, List.filter_cons, ha]

/-- Only the order inside a clause matters. From any query without an error, two calls of
different clauses may change places: they succeed together in both orders or in neither, and
leave the same view and the same texts. So may the calls of whole programs, as long as the two
programs make the same calls on each clause in the same order. -/
theorem order_inside_clauses_decides (s : Statement) (herror : s.error = none)
    (hkind : s.kind = none ∨ s.kind = some .select) :
    (∀ a b : Call, a.Selects → b.Selects → a.clause? ≠ b.clause? →
      (((s.apply a).apply b).error = none ↔ ((s.apply b).apply a).error = none) ∧
      (((s.apply a).apply b).error = none →
        ((s.apply a).apply b).toStructured = ((s.apply b).apply a).toStructured ∧
          ∀ layout, ((s.apply a).apply b).toSql layout = ((s.apply b).apply a).toSql layout)) ∧
    ∀ p q : List Call, (∀ c ∈ p, c.Selects) → (∀ c ∈ q, c.Selects) →
      (∀ k, callsOf k p = callsOf k q) →
      ((s.run p).error = none ↔ (s.run q).error = none) ∧
      ((s.run p).error = none →
        (s.run p).toStructured = (s.run q).toStructured ∧
          ∀ layout, (s.run p).toSql layout = (s.run q).toSql layout) := by
  have hs : Selecting s := ⟨herror, hkind⟩
  refine ⟨fun a b ha hb hne => ?_, fun p q hp hq hsame => shows_alike_reordered hp hq hsame hs⟩
  have hab : ∀ c ∈ [a, b], c.Selects := by simp [ha, hb]
  have hba : ∀ c ∈ [b, a], c.Selects := by simp [ha, hb]
  exact shows_alike_reordered hab hba (callsOf_swap hne) hs

def adultsByTeam : List Call :=
  [.select (.text "team"), .source (.text "users"), .filter "age > ?" [.int 17],
    .orFilter "age = ?" [.int 0], .groupBy (.text "team"), .having "n > ?" [.int 1],
    .orHaving "n = ?" [.int 0], .limit 0 10]

def adultsByTeamMixed : List Call :=
  [.limit 0 10, .having "n > ?" [.int 1], .filter "age > ?" [.int 17], .groupBy (.text "team"),
    .orHaving "n = ?" [.int 0], .select (.text "team"), .orFilter "age = ?" [.int 0],
    .source (.text "users")]

theorem adultsByTeam_mixed :
    ((new .postgres).run adultsByTeam).error = none ∧
    ((new .postgres).run adultsByTeamMixed).error = none ∧
    ((new .postgres).run adultsByTeamMixed).toSql .compact =
      .ok ("SELECT \"team\" FROM \"users\" WHERE (age > 17 OR age = 0) " ++
        "GROUP BY \"team\" HAVING (n > 1 OR n = 0) LIMIT 10 OFFSET 0") := by
  have hp : ∀ c ∈ adultsByTeam, c.Selects := by
    simp [adultsByTeam, Call.Selects, Call.Built, Call.clause?]
  have hq : ∀ c ∈ adultsByTeamMixed, c.Selects := by
    simp [adultsByTeamMixed, Call.Selects, Call.Built, Call.clause?]
  have hsame : ∀ k, callsOf k adultsByTeam = callsOf k adultsByTeamMixed := by
    intro k
    cases k <;> rfl
  have herror : ((new .postgres).run adultsByTeam).error = none :=
    Option.isNone_iff_eq_none.mp (by decide +kernel)
  obtain ⟨hiff, hshows⟩ := (order_inside_clauses_decides (new .postgres) rfl (.inl rfl)).2
    adultsByTeam adultsByTeamMixed hp hq hsame
  refine ⟨herror, hiff.mp herror, ?_⟩
  rw [← (hshows herror).2]
  exact Outcome.eq_ok_of_toOption (by decide +kernel)

end SqlBuilder.Statement
