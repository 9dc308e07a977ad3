import SqlBuilder.Proofs.Template
import SqlBuilder.Proofs.Template.Expansion

/-!
# Filling placeholder by placeholder

A template is cut before any parameter is looked at, and each placeholder takes the parameter at
its own place. So filling succeeds when every placeholder can be filled by itself, its text is
the plain text with the fillings between, and an error is that of the first placeholder that
cannot be filled.
-/
namespace SqlBuilder.Template

open List (Forall₂)

variable {t t' : Template} {e : Engine} {form : PlaceholderForm} {forms : List PlaceholderForm}
  {params : List Value} {v : Value} {x : SqlError} {i : Nat}

def Segment.source : Segment → List Char
  | .plain c => [c]
  | .hole form => form.text.toList

theorem source_segments (cs : List Char) : (segments cs).flatMap Segment.source = cs := by
  induction cs using segments.induct with
  | case1 cs ih =>
    simp only [segments, List.flatMap_cons, ih]
    rfl
  | case2 cs ih =>
    simp only [segments, List.flatMap_cons, ih]
    rfl
  | case3 cs h ih =>
    simp only [segments, List.flatMap_cons, ih]
    rfl
  | case4 c cs h₁ h₂ h₃ ih =>
    simp only [segments, List.flatMap_cons, ih]
    rfl
  | case5 => rfl

/-- The plain characters, with the texts in the places of the placeholders. -/
def weave : List Segment → List String → List Char
  | .plain c :: ss, texts => c :: weave ss texts
  | .hole _ :: ss, text :: texts => text.toList ++ weave ss texts
  | .hole _ :: ss, [] => weave ss []
  | [], _ => []

def fillings (t : Template) (e : Engine) :
    List PlaceholderForm → List Value → Outcome (List String)
  | [], _ => .ok []
  | form :: _, [] => .error (.placeholder (.missing t.text form t.params.length))
  | form :: forms, v :: params => do
    let text ← e.fillOne form v
    return text :: (← fillings t e forms params)

theorem fillSegments_eq (t : Template) (e : Engine) (ss : List Segment) (params : List Value) :
    t.fillSegments e ss params = (t.fillings e (holes ss) params).map (weave ss) := by
  induction ss generalizing params with
  | nil => rfl
  | cons s ss ih =>
    cases s with
    | plain c =>
      have hholes : holes (.plain c :: ss) = holes ss := rfl
      rw [fillSegments, ih, hholes]
      cases t.fillings e (holes ss) params <;> rfl
    | hole form =>
      have hholes : holes (.hole form :: ss) = form :: holes ss := rfl
      rw [fillSegments, hholes]
      cases params with
      | nil => rfl
      | cons v params =>
        rw [fillings, take]
        cases e.fillOne form v with
        | error x => rfl
        | ok text =>
          have hrest := ih params
          simp only [Except.map, bind, Except.bind, pure, Except.pure] at hrest ⊢
          rw [hrest]
          cases t.fillings e (holes ss) params <;> rfl

theorem fillings_eq_ok_iff {texts : List String} :
    t.fillings e forms params = .ok texts ↔ forms.length ≤ params.length ∧
      Forall₂ (fun p text => Expands e p.1 p.2 text) (forms.zip params) texts := by
  induction forms generalizing params texts with
  | nil => simp [fillings, eq_comm]
  | cons form forms ih =>
    cases params with
    | nil => simp [fillings]
    | cons v params =>
      rw [fillings, List.zip_cons_cons, List.length_cons, List.length_cons, Nat.succ_le_succ_iff]
      constructor
      · intro h
        obtain ⟨text, htext, h⟩ := Outcome.exists_of_bind_eq_ok h
        obtain ⟨texts', htexts, h⟩ := Outcome.exists_of_bind_eq_ok h
        cases h
        obtain ⟨hle, hrest⟩ := ih.mp htexts
        exact ⟨hle, .cons (fillOne_eq_ok_iff.mp htext) hrest⟩
      · rintro ⟨hle, hall⟩
        cases hall with
        | cons htext hrest =>
          rw [fillOne_eq_ok_iff.mpr htext, ih.mpr ⟨hle, hrest⟩]
          rfl

/-- The placeholder at a place cannot be filled, and all before it can. -/
def FailsAt (t : Template) (e : Engine) (forms : List PlaceholderForm) (params : List Value)
    (i : Nat) (x : SqlError) : Prop :=
  (∀ p ∈ (forms.zip params).take i, ∃ text, Expands e p.1 p.2 text) ∧
  i ≤ params.length ∧
  ∃ form, forms[i]? = some form ∧
    match params[i]? with
    | some v => e.fillOne form v = .error x
    | none => x = .placeholder (.missing t.text form t.params.length)

theorem failsAt_nil : FailsAt t e (form :: forms) [] i x ↔
    i = 0 ∧ x = .placeholder (.missing t.text form t.params.length) := by
  cases i <;> simp [FailsAt]

theorem failsAt_zero : FailsAt t e (form :: forms) (v :: params) 0 x ↔
    e.fillOne form v = .error x := by
  simp [FailsAt]

theorem failsAt_succ : FailsAt t e (form :: forms) (v :: params) (i + 1) x ↔
    (∃ text, Expands e form v text) ∧ FailsAt t e forms params i x := by
  simp only [FailsAt, List.zip_cons_cons, List.take_succ_cons, List.forall_mem_cons,
    List.length_cons, Nat.succ_le_succ_iff, List.getElem?_cons_succ, and_assoc]

theorem fillings_eq_error_iff :
    t.fillings e forms params = .error x ↔ ∃ i, FailsAt t e forms params i x := by
  -- Each placeholder takes its parameter with it, so a later failure keeps its distance to both.
  induction forms generalizing params with
  | nil => simp [fillings, FailsAt]
  | cons form forms ih =>
    cases params with
    | nil => simp [fillings, failsAt_nil, eq_comm]
    | cons v params =>
      rw [fillings]
      cases hfill : e.fillOne form v with
      | error y =>
        constructor
        · intro h
          cases h
          exact ⟨0, failsAt_zero.mpr hfill⟩
        · rintro ⟨_ | i, h⟩
          · rw [failsAt_zero, hfill] at h
            cases h
            rfl
          · obtain ⟨⟨text, htext⟩, -⟩ := failsAt_succ.mp h
            rw [← fillOne_eq_ok_iff, hfill] at htext
            cases htext
      | ok text =>
        have hrest : (do return text :: (← t.fillings e forms params)) = .error x ↔
            t.fillings e forms params = .error x := by
          cases t.fillings e forms params <;> simp [bind, Except.bind, pure, Except.pure]
        refine hrest.trans (ih.trans ⟨?_, ?_⟩)
        · rintro ⟨i, h⟩
          exact ⟨i + 1, failsAt_succ.mpr ⟨⟨text, fillOne_eq_ok_iff.mp hfill⟩, h⟩⟩
        · rintro ⟨_ | i, h⟩
          · rw [failsAt_zero, hfill] at h
            cases h
          · exact ⟨i, (failsAt_succ.mp h).2⟩

theorem fillings_append (h : forms.length ≤ params.length) (more : List Value) :
    t.fillings e forms (params ++ more) = t'.fillings e forms params := by
  induction forms generalizing params with
  | nil => rfl
  | cons form forms ih =>
    cases params with
    | nil => simp at h
    | cons v params =>
      rw [List.cons_append, fillings, fillings, ih (Nat.le_of_succ_le_succ h)]

theorem FailsAt.kind_eq_placeholder_iff (h : FailsAt t e forms params i x) :
    x.kind = .placeholder ↔ params[i]? = none := by
  obtain ⟨-, -, form, -, hx⟩ := h
  cases hparam : params[i]? with
  | none =>
    rw [hparam] at hx
    rw [hx]
    exact ⟨fun _ => rfl, fun _ => rfl⟩
  | some v =>
    rw [hparam] at hx
    rw [shapeOnly_fillOne e form v x hx]
    exact ⟨nofun, nofun⟩

theorem prepare_eq (e : Engine) (template : String) (params : List Value) :
    e.prepare template params =
      ((⟨template, params⟩ : Template).fillings e (holes (segments template.toList)) params).map
        fun texts => String.ofList (weave (segments template.toList) texts) := by
  rw [Engine.prepare, fill_eq_fillSegments, fillSegments_eq]
  cases fillings ⟨template, params⟩ e (holes (segments template.toList)) params <;> rfl

theorem prepare_eq_ok_iff {template text : String} :
    e.prepare template params = .ok text ↔
      (holes (segments template.toList)).length ≤ params.length ∧
      ∃ texts, Forall₂ (fun p text => Expands e p.1 p.2 text)
          ((holes (segments template.toList)).zip params) texts ∧
        text = String.ofList (weave (segments template.toList) texts) := by
  rw [prepare_eq]
  constructor
  · intro h
    obtain ⟨texts, htexts, rfl⟩ := Outcome.exists_of_map_eq_ok h
    obtain ⟨hle, hall⟩ := fillings_eq_ok_iff.mp htexts
    exact ⟨hle, texts, hall, rfl⟩
  · rintro ⟨hle, texts, hall, rfl⟩
    rw [fillings_eq_ok_iff.mpr ⟨hle, hall⟩]
    rfl

/-- A template can be filled exactly when no placeholder lacks a parameter or has one it cannot
hold. -/
theorem exists_prepare_iff {template : String} :
    (∃ text, e.prepare template params = .ok text) ↔
      (holes (segments template.toList)).length ≤ params.length ∧
      ∀ p ∈ (holes (segments template.toList)).zip params, ∃ text, Expands e p.1 p.2 text := by
  constructor
  · rintro ⟨text, h⟩
    obtain ⟨hle, texts, hall, -⟩ := prepare_eq_ok_iff.mp h
    refine ⟨hle, fun p hp => ?_⟩
    obtain ⟨text, -, htext⟩ := Outcome.exists_of_mem_left hall hp
    exact ⟨text, htext⟩
  · rintro ⟨hle, hall⟩
    obtain ⟨texts, htexts⟩ := Outcome.exists_forall₂ hall
    exact ⟨_, prepare_eq_ok_iff.mpr ⟨hle, texts, htexts, rfl⟩⟩

theorem prepare_eq_error_iff {template : String} :
    e.prepare template params = .error x ↔
      ∃ i, FailsAt ⟨template, params⟩ e (holes (segments template.toList)) params i x := by
  rw [prepare_eq, ← fillings_eq_error_iff]
  cases fillings ⟨template, params⟩ e (holes (segments template.toList)) params <;>
    simp [Except.map]

theorem prepare_append {template : String}
    (h : (holes (segments template.toList)).length ≤ params.length) (more : List Value) :
    e.prepare template (params ++ more) = e.prepare template params := by
  rw [prepare_eq, prepare_eq, fillings_append h]

/-- Filling agrees with the cut of the template: it succeeds when each placeholder can be
written by itself, whatever those texts hold, and else it stops at the first that cannot. -/
theorem prepare_fills_holes (e : Engine) (template : String) (params : List Value) :
    let ss := segments template.toList
    ss.flatMap Segment.source = template.toList ∧
    ((∃ text, e.prepare template params = .ok text) ↔
      (holes ss).length ≤ params.length ∧
      ∀ p ∈ (holes ss).zip params, ∃ text, Expands e p.1 p.2 text) ∧
    (∀ text, e.prepare template params = .ok text ↔
      (holes ss).length ≤ params.length ∧
      ∃ texts, Forall₂ (fun p text => Expands e p.1 p.2 text) ((holes ss).zip params) texts ∧
        text = String.ofList (weave ss texts)) ∧
    ((holes ss).length ≤ params.length →
      ∀ more, e.prepare template (params ++ more) = e.prepare template params) ∧
    (∀ x, e.prepare template params = .error x ↔
      ∃ i, FailsAt ⟨template, params⟩ e (holes ss) params i x) ∧
    (∀ i x, FailsAt ⟨template, params⟩ e (holes ss) params i x →
      (x.kind = .placeholder ↔ params[i]? = none)) :=
  ⟨source_segments template.toList, exists_prepare_iff, fun _ => prepare_eq_ok_iff,
    prepare_append, fun _ => prepare_eq_error_iff, fun _ _ h => h.kind_eq_placeholder_iff⟩

/-- The marks overlap, and the texts filled in hold marks of their own. -/
theorem prepare_fills_overlapping_marks :
    let template := "((?)) = ???("
    let list : Value := .list [.text "(?)", .int 1]
    let filled := "(('(?)', 1)) = \"a\".\"b\"'it''s ?'("
    holes (segments template.toList) = [.list, .ident, .literal] ∧
    Engine.postgres.prepare template [list, .ident "a.b", .text "it's ?"] = .ok filled ∧
    Engine.postgres.prepare template [list, .ident "a.b", .text "it's ?", .null] = .ok filled ∧
    (∃ x, Engine.postgres.prepare template [list] = .error x ∧ x.kind = .placeholder) ∧
    Engine.postgres.prepare template [list, .null] =
      .error (.shape (.notIdentifier .null)) := by
  intro template list filled
  have hlist : Expands .postgres .list list "('(?)', 1)" :=
    fillOne_eq_ok_iff.mp (Outcome.eq_ok_of_toOption (by decide +kernel))
  have hident : Expands .postgres .ident (.ident "a.b") "\"a\".\"b\"" :=
    fillOne_eq_ok_iff.mp (Outcome.eq_ok_of_toOption (by decide +kernel))
  have hall : Forall₂ (fun p text => Expands .postgres p.1 p.2 text)
      ([.list, .ident, .literal].zip [list, .ident "a.b", .text "it's ?"])
      ["('(?)', 1)", "\"a\".\"b\"", "'it''s ?'"] :=
    .cons hlist (.cons hident (.cons (.literal rfl) .nil))
  have hholes : holes (segments template.toList) = [.list, .ident, .literal] := by decide +kernel
  have hmissing : FailsAt ⟨template, [list]⟩ .postgres [.list, .ident, .literal] [list] 1
      (.placeholder (.missing template .ident 1)) :=
    failsAt_succ.mpr ⟨⟨_, hlist⟩, failsAt_nil.mpr ⟨rfl, rfl⟩⟩
  have hmisshaped : FailsAt ⟨template, [list, .null]⟩ .postgres [.list, .ident, .literal]
      [list, .null] 1 (.shape (.notIdentifier .null)) :=
    failsAt_succ.mpr ⟨⟨_, hlist⟩, failsAt_zero.mpr rfl⟩
  obtain ⟨-, -, hfull, hexcess, -⟩ :=
    prepare_fills_holes .postgres template [list, .ident "a.b", .text "it's ?"]
  obtain ⟨-, -, -, -, hshort, hkind⟩ := prepare_fills_holes .postgres template [list]
  obtain ⟨-, -, -, -, hwrong, -⟩ := prepare_fills_holes .postgres template [list, .null]
  rw [hholes] at hfull hexcess hshort hkind hwrong
  have hok := (hfull filled).mpr ⟨le_rfl, _, hall, by decide +kernel⟩
  exact ⟨hholes, hok, (hexcess le_rfl [.null]).trans hok,
    ⟨_, (hshort _).mpr ⟨1, hmissing⟩, (hkind 1 _ hmissing).mpr rfl⟩,
    (hwrong _).mpr ⟨1, hmisshaped⟩⟩

end SqlBuilder.Template
