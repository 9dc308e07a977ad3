import SqlBuilder.Proofs.Edits
import SqlBuilder.Proofs.Payload.Statement

/-!
# Programs with other payloads

Two programs of builder calls that differ only in payload texts, at any nesting of
statements. Either both fail with the same kind of error, or both render, and an engine
cuts the two texts into the same tokens but for the literals that hold the payloads.
-/
namespace SqlBuilder.Payload

open Lexer Template
open List (Forall₂)
open Outcome (isEmpty_eq)

variable {R : List Char → List Char → Prop} {s t : Statement}

/-- The same call, but for payloads in its values and search terms and in the statements
nested in it. There is no such call for fragments given as they are. -/
inductive CallAlike (R : List Char → List Char → Prop) (S : Statement → Statement → Prop) :
    Call → Call → Prop where
  | config (config : Config) : CallAlike R S (.config config) (.config config)
  | table (name : String) : CallAlike R S (.table name) (.table name)
  | withAlias (name : String) : CallAlike R S (.withAlias name) (.withAlias name)
  | source {f g : Field} : FieldAlike S f g → CallAlike R S (.source f) (.source g)
  | select {f g : Field} : FieldAlike S f g → CallAlike R S (.select f) (.select g)
  | selectJson {spec : JsonSpec} (shape : JsonShape) (aliasName : String) : Rawless spec →
      CallAlike R S (.selectJson spec shape aliasName) (.selectJson spec shape aliasName)
  | aggregate (function : String) {f g : Field} (aliasName : Option String) : FieldAlike S f g →
      CallAlike R S (.aggregate function f aliasName) (.aggregate function g aliasName)
  | insert {rows rows' : List Row} : Forall₂ (RowAlike R) rows rows' →
      CallAlike R S (.insert rows) (.insert rows')
  | update {row row' : Row} : RowAlike R row row' → CallAlike R S (.update row) (.update row')
  | delete : CallAlike R S .delete .delete
  | join (kind : JoinKind) {f g : Field} {on : String} {ps qs : List Value} :
      FieldAlike S f g → Plain on → ParamsAlike R (holes (segments on.toList)) ps qs →
      CallAlike R S (.join kind f on ps) (.join kind g on qs)
  | filter {template : String} {ps qs : List Value} : Plain template →
      ParamsAlike R (holes (segments template.toList)) ps qs →
      CallAlike R S (.filter template ps) (.filter template qs)
  | filterWith {template : String} {ps qs : List Value} (op : String) : Plain template →
      ParamsAlike R (holes (segments template.toList)) ps qs →
      CallAlike R S (.filterWith template ps op) (.filterWith template qs op)
  | orFilter {template : String} {ps qs : List Value} : Plain template →
      ParamsAlike R (holes (segments template.toList)) ps qs →
      CallAlike R S (.orFilter template ps) (.orFilter template qs)
  | andFilter {template : String} {ps qs : List Value} : Plain template →
      ParamsAlike R (holes (segments template.toList)) ps qs →
      CallAlike R S (.andFilter template ps) (.andFilter template qs)
  | filterIn (field : String) {v w : Value} : ValueAlike R v w →
      CallAlike R S (.filterIn field v) (.filterIn field w)
  | filterInSub (field : String) {s t : Statement} : S s t →
      CallAlike R S (.filterInSub field s) (.filterInSub field t)
  | search {f g : Field} {term term' : String} : FieldAlike S f g → TermAlike R term term' →
      CallAlike R S (.search f term) (.search g term')
  | having {template : String} {ps qs : List Value} : Plain template →
      ParamsAlike R (holes (segments template.toList)) ps qs →
      CallAlike R S (.having template ps) (.having template qs)
  | havingWith {template : String} {ps qs : List Value} (op : String) : Plain template →
      ParamsAlike R (holes (segments template.toList)) ps qs →
      CallAlike R S (.havingWith template ps op) (.havingWith template qs op)
  | orHaving {template : String} {ps qs : List Value} : Plain template →
      ParamsAlike R (holes (segments template.toList)) ps qs →
      CallAlike R S (.orHaving template ps) (.orHaving template qs)
  | connect (op : BoolOp) : CallAlike R S (.connect op) (.connect op)
  | groupBy {f g : Field} : FieldAlike S f g → CallAlike R S (.groupBy f) (.groupBy g)
  | orderBy {f g : Field} (direction : String) : FieldAlike S f g →
      CallAlike R S (.orderBy f direction) (.orderBy g direction)
  | limit (offset count : Nat) : CallAlike R S (.limit offset count) (.limit offset count)
  | reset : CallAlike R S .reset .reset

theorem FieldAlike.mono {S S' : Statement → Statement → Prop} (hS : ∀ s t, S s t → S' s t)
    {f g : Field} (h : FieldAlike S f g) : FieldAlike S' f g := by
  cases h with
  | text s => exact .text s
  | list names => exact .list names
  | ident name => exact .ident name
  | statement hst => exact .statement (hS _ _ hst)

/-- A text that does not depend on payloads is the same, and ends outside quotes. -/
abbrev SameClosed (e : Engine) : Outcome String → Outcome String → Prop :=
  Outcome.Alike fun a b => a = b ∧ Closed e a.toList

theorem sameClosed_quoteIdent (e : Engine) (name : String) :
    SameClosed e (e.quoteIdent name) (e.quoteIdent name) :=
  .refl _ fun _ ht => ⟨rfl, closed_quoteIdent ht⟩

namespace StatementAlike

variable {f g : Field}

theorem sameClosed_table (e : Engine) (name : String) :
    SameClosed e (do (← (Field.text name).joined e).render .compact 0)
      (do (← (Field.text name).joined e).render .compact 0) := by
  refine .refl _ fun text ht => ⟨rfl, ?_⟩
  obtain ⟨f, hf, ht⟩ := Outcome.exists_of_bind_eq_ok ht
  have hjoined := joined_alike (R := Eq) (e := e) (.text name)
  rw [hf] at hjoined
  cases hjoined with
  | ok hff =>
    have hpieces := hff.pieces 0
    obtain ⟨ps, hps, rfl⟩ := Fragment.exists_pieces ht
    rw [hps] at hpieces
    cases hpieces with
    | ok hab => exact (hab .compact).left

theorem table (h : StatementAlike R s t) (name : String) :
    StatementAlike R (s.table name) (t.table name) := by
  apply h.attempt
  have hname := sameClosed_table s.engine name
  rw [← h.engine, ← bind_assoc, ← bind_assoc]
  apply hname.bind
  rintro name _ ⟨rfl, hclosed⟩
  refine .ok { h with state := ⟨h.state.kind, rfl, h.state.isSub, ?_, h.state.clause⟩ }
  intro name' hname'
  cases hname'
  exact hclosed

theorem pushField (h : StatementAlike R s t) (hf : FieldAlike (StatementAlike R) f g)
    (place : NamedPlace) (c : ClauseKind) :
    Outcome.Alike (StatementAlike R)
      (do
        f.requireName place
        return s.pushAll c (← f.fragments s.engine))
      (do
        g.requireName place
        return t.pushAll c (← g.fragments t.engine)) := by
  rw [← h.engine, ← requireName_alike hf place]
  apply Outcome.Alike.bind_left
  intro _
  exact (fragments_alike hf).bind fun fs gs hfg => .ok (h.pushAll c hfg)

theorem source (h : StatementAlike R s t) (hf : FieldAlike (StatementAlike R) f g) :
    StatementAlike R (s.source f) (t.source g) :=
  h.attemptAs _ fun _ _ h => h.pushField hf .source .source

theorem select (h : StatementAlike R s t) (hf : FieldAlike (StatementAlike R) f g) :
    StatementAlike R (s.select f) (t.select g) :=
  h.attemptAs _ fun _ _ h => h.pushField hf .selectList .select

theorem selectJson (h : StatementAlike R s t) {spec : JsonSpec} (hspec : Rawless spec)
    (shape : JsonShape) (aliasName : String) :
    StatementAlike R (s.selectJson spec shape aliasName) (t.selectJson spec shape aliasName) := by
  apply h.attemptAs
  intro s t h
  have has : Separates s.engine " AS ".toList := by cases s.engine <;> decide
  have hcompile : SameClosed s.engine (spec.compile s.dialect shape)
      (spec.compile s.dialect shape) := .refl _ fun _ ht => ⟨rfl, closed_compile hspec ht⟩
  rw [← h.dialect, ← h.engine]
  apply hcompile.bind
  rintro text _ ⟨rfl, hclosed⟩
  by_cases hempty : text = ""
  · simp only [hempty, if_true]
    exact .ok h
  by_cases hblank : Text.blank aliasName = true
  · simp only [hempty, hblank, if_false, if_true]
    exact .ok (h.push _ (.ofText (.refl hclosed)))
  · simp only [hempty, hblank, if_false]
    apply (sameClosed_quoteIdent s.engine aliasName).bind
    rintro name _ ⟨rfl, hname⟩
    refine .ok (h.push _ (.ofText (.refl ?_)))
    rw [String.toList_append, String.toList_append]
    exact closed_append_of_opens (opens_append_separates hclosed has) hname

theorem aggregate (h : StatementAlike R s t) (function : String)
    (hf : FieldAlike (StatementAlike R) f g) (aliasName : Option String) :
    StatementAlike R (s.aggregate function f aliasName) (t.aggregate function g aliasName) := by
  apply h.attemptAs
  intro s t h
  have has : Separates s.engine " AS ".toList := by cases s.engine <;> decide
  have hclose : Separates s.engine ")".toList := by cases s.engine <;> decide
  rw [← h.engine]
  cases Aggregate.ofText? function with
  | none => exact .error rfl
  | some function =>
    have hopen : Opens s.engine (function.keyword ++ "(").toList := by
      cases s.engine <;> cases function <;> decide
    apply (fragments_alike hf).bind
    intro fs gs hfg
    cases hfg with
    | nil => exact .error rfl
    | cons hab hrest =>
      cases hrest with
      | cons _ _ => exact .error rfl
      | nil =>
        have hcall := (hab.after hopen).before hclose
        cases aliasName with
        | none => exact .ok (h.push _ hcall)
        | some aliasName =>
          apply (sameClosed_quoteIdent s.engine aliasName).bind
          rintro name _ ⟨rfl, hname⟩
          exact .ok (h.push _ (hcall.before_text has (.refl hname)))

theorem setColumns (h : StatementAlike R s t) {columns : List String}
    (hcolumns : ∀ c ∈ columns, Closed s.engine c.toList) :
    StatementAlike R (s.setColumns columns) (t.setColumns columns) := by
  simp only [Statement.setColumns]
  rw [← h.insertColumns]
  split
  · have hpushed := h.push .insert (.ofText (.refl (closed_commaJoined hcolumns)))
    exact { hpushed with insertColumns := rfl }
  · exact h

theorem engine_setColumns (s : Statement) (columns : List String) :
    (s.setColumns columns).engine = s.engine := by
  rw [Statement.setColumns]
  split <;> rfl

theorem pushRow (h : StatementAlike R s t) {row row' : Row} (hrow : RowAlike R row row') :
    Outcome.Alike (StatementAlike R) (s.pushRow row) (t.pushRow row') := by
  unfold Statement.pushRow
  rw [← h.engine, ← isEmpty_eq hrow]
  split
  · exact .error rfl
  apply (escapeRow_alike hrow []).bind
  intro ps qs hpq
  have hset := h.setColumns (columns_closed hpq)
  rw [← columns_eq hpq]
  dsimp only
  rw [← hset.insertColumns]
  refine (alignRow_alike hpq _).bind fun as bs hab => .ok (hset.push .insert (.ofText ?_))
  rw [engine_setColumns]
  exact commaJoined_alike hab

theorem insert (h : StatementAlike R s t) {rows rows' : List Row}
    (hrows : Forall₂ (RowAlike R) rows rows') :
    StatementAlike R (s.insert rows) (t.insert rows') := by
  apply h.attemptAs
  intro s t h
  rw [← isEmpty_eq hrows]
  split
  · exact .error rfl
  · exact Outcome.Alike.foldlM hrows (fun s t row row' h hrow => h.pushRow hrow) h

theorem checkLimit (h : StatementAlike R s t) :
    Outcome.Alike (StatementAlike R) s.checkLimit t.checkLimit := by
  have hkind : s.kind = t.kind := h.state.kind
  have hlimit := isEmpty_eq (h.state.clause .limit)
  unfold Statement.checkLimit
  rw [← hkind, ← hlimit, ← h.engine]
  dsimp only
  split
  · exact .error rfl
  · exact .ok h

theorem update (h : StatementAlike R s t) {row row' : Row} (hrow : RowAlike R row row') :
    StatementAlike R (s.update row) (t.update row') := by
  apply h.attemptAs
  intro s t h
  have heq : Separates s.engine " = ".toList := by cases s.engine <;> decide
  rw [← isEmpty_eq hrow, ← h.engine]
  split
  · exact .error rfl
  apply (escapeRow_alike hrow []).bind
  intro ps qs hpq
  refine (h.pushAll .update ?_).checkLimit
  rw [List.forall₂_map_left_iff, List.forall₂_map_right_iff]
  refine hpq.imp fun p q h => .ofText ?_
  rw [← h.column]
  simp only [String.toList_append]
  exact (TextAlike.refl h.closed).append_separated heq h.value

theorem delete (h : StatementAlike R s t) : StatementAlike R s.delete t.delete :=
  h.attemptAs _ fun _ _ h => h.checkLimit

theorem join (h : StatementAlike R s t) (kind : JoinKind)
    (hf : FieldAlike (StatementAlike R) f g) {on : String} (hon : Plain on) {ps qs : List Value}
    (hp : ParamsAlike R (holes (segments on.toList)) ps qs) :
    StatementAlike R (s.join kind f on ps) (t.join kind g on qs) := by
  apply h.attempt
  have hkeyword : Opens s.engine (kind.keyword ++ " ").toList := by
    cases s.engine <;> cases kind <;> decide
  have honText : Separates s.engine " ON ".toList := by cases s.engine <;> decide
  rw [← h.engine, ← requireName_alike hf .join]
  apply Outcome.Alike.bind_left
  intro _
  apply (joined_alike hf).bind
  intro a b hab
  have hfragment := hab.after hkeyword
  dsimp only
  split
  · exact .ok (h.push _ hfragment)
  · apply (prepare_alike hon hp).bind
    intro x y hxy
    exact .ok (h.push _ (hfragment.before_text honText hxy))

theorem pushTemplate (h : StatementAlike R s t) (c : ClauseKind) {template : String}
    (ht : Plain template) {ps qs : List Value}
    (hp : ParamsAlike R (holes (segments template.toList)) ps qs) (op : BoolOp) :
    Outcome.Alike (StatementAlike R) (s.pushTemplate c template ps op)
      (t.pushTemplate c template qs op) := by
  simp only [Statement.pushTemplate]
  rw [← h.engine]
  split
  · exact .error rfl
  · apply (prepare_alike ht hp).bind
    intro x y hxy
    exact .ok (h.pushPredicate c (.ofText hxy) op)

theorem predicateWith (h : StatementAlike R s t) (c : ClauseKind) {template : String}
    (ht : Plain template) {ps qs : List Value}
    (hp : ParamsAlike R (holes (segments template.toList)) ps qs) (op : String) :
    StatementAlike R (s.predicateWith c template ps op) (t.predicateWith c template qs op) := by
  apply h.attempt
  cases BoolOp.ofText? op with
  | none => exact .error rfl
  | some op => exact h.pushTemplate c ht hp op

theorem filterIn (h : StatementAlike R s t) (field : String) {v w : Value}
    (hv : ValueAlike R v w) : StatementAlike R (s.filterIn field v) (t.filterIn field w) := by
  apply h.attempt
  have hplain : Plain "?? IN (?)" := ⟨by decide, by decide⟩
  have hp : ParamsAlike R (holes (segments "?? IN (?)".toList)) [.text field, v]
      [.text field, w] := .ident _ (.value (by decide) hv (.rest _ _))
  rw [← h.engine]
  apply (prepare_alike hplain hp).bind
  intro x y hxy
  exact .ok (h.pushPredicate _ (.ofText hxy) _)

theorem filterInSub (h : StatementAlike R s t) (field : String) {a b : Statement}
    (hab : StatementAlike R a b) :
    StatementAlike R (s.filterInSub field a) (t.filterInSub field b) := by
  apply h.attempt
  have hin : Separates s.engine " IN ".toList := by cases s.engine <;> decide
  rw [← h.engine]
  apply (sameClosed_quoteIdent s.engine field).bind
  rintro name _ ⟨rfl, hname⟩
  refine (nested_alike hab s.engine).bind fun x y hxy => .ok (h.pushPredicate _ ?_ _)
  have hopen : Opens s.engine (name ++ " IN ").toList := by
    rw [String.toList_append]
    exact opens_append_separates hname hin
  exact (FragmentAlike.ofSub hxy).after hopen

theorem search (h : StatementAlike R s t) (hf : FieldAlike (StatementAlike R) f g)
    {term term' : String} (hterm : TermAlike R term term') :
    StatementAlike R (s.search f term) (t.search g term') := by
  apply h.attempt
  have hempty : Statement.hasNoSearchField f = Statement.hasNoSearchField g := by
    cases hf <;> rfl
  rw [← h.engine, ← hempty]
  split
  · exact .error rfl
  apply (fragments_alike hf).bind
  intro fs gs hfg
  apply (Outcome.Alike.mapM hfg fun _ _ h => searchColumn_alike h).bind
  intro as bs hab
  apply (fulltext_alike hab hterm).bind
  intro x y hxy
  exact .ok (h.pushPredicate _ (.ofText hxy) _)

theorem groupBy (h : StatementAlike R s t) (hf : FieldAlike (StatementAlike R) f g) :
    StatementAlike R (s.groupBy f) (t.groupBy g) := by
  apply h.attempt
  rw [← h.engine]
  exact (fragments_alike hf).bind fun fs gs hfg => .ok (h.pushAll _ hfg)

theorem orderBy (h : StatementAlike R s t) (hf : FieldAlike (StatementAlike R) f g)
    (direction : String) : StatementAlike R (s.orderBy f direction) (t.orderBy g direction) := by
  apply h.attempt
  rw [← h.engine]
  cases SortOrder.ofText? direction with
  | none => exact .error rfl
  | some order =>
    have hspace : Separates s.engine " ".toList := by cases s.engine <;> decide
    have horder : Closed s.engine order.keyword.toList :=
      closed_of_quoteFree _ (by cases order <;> decide)
    refine (fragments_alike hf).bind fun fs gs hfg => .ok (h.pushAll _ ?_)
    rw [List.forall₂_map_left_iff, List.forall₂_map_right_iff]
    exact hfg.imp fun _ _ hab => hab.before_text hspace (.refl horder)

theorem closed_limit (e : Engine) (offset count : Nat) :
    Closed e (e.limit offset count).toList := by
  apply closed_of_quoteFree e
  cases e with
  | mysql =>
    simp only [Engine.limit, String.toList_append, quoteFree_append]
    exact ⟨⟨⟨by decide, quoteFree_nat offset⟩, by decide⟩, quoteFree_nat count⟩
  | postgres =>
    simp only [Engine.limit, String.toList_append, quoteFree_append]
    exact ⟨⟨⟨by decide, quoteFree_nat count⟩, by decide⟩, quoteFree_nat offset⟩

theorem limit (h : StatementAlike R s t) (offset count : Nat) :
    StatementAlike R (s.limit offset count) (t.limit offset count) := by
  apply h.attempt
  rw [← h.engine]
  have hclosed := closed_limit s.engine offset count
  have hset := h.state.setClause .limit (.cons (.ofText (.refl hclosed)) .nil)
  exact checkLimit { h with state := hset }

theorem reset (h : StatementAlike R s t) : StatementAlike R s.reset t.reset :=
  { h with
    insertColumns := rfl
    lastPredicate := rfl
    error := rfl
    state := h.state.clear.withKind none }

end StatementAlike

theorem apply_alike {S : Statement → Statement → Prop}
    (hS : ∀ s t, S s t → StatementAlike R s t) {c d : Call} (hcd : CallAlike R S c d)
    (h : StatementAlike R s t) : StatementAlike R (s.apply c) (t.apply d) := by
  cases hcd with
  | config config => exact { h with config := rfl }
  | table name => exact h.table name
  | withAlias name => exact { h with aliasName := rfl }
  | source hf => exact h.source (hf.mono hS)
  | select hf => exact h.select (hf.mono hS)
  | selectJson shape aliasName hspec => exact h.selectJson hspec shape aliasName
  | aggregate function aliasName hf => exact h.aggregate function (hf.mono hS) aliasName
  | insert hrows => exact h.insert hrows
  | update hrow => exact h.update hrow
  | delete => exact h.delete
  | join kind hf hon hp => exact h.join kind (hf.mono hS) hon hp
  | filter ht hp => exact h.predicateWith .filter ht hp "AND"
  | filterWith op ht hp => exact h.predicateWith .filter ht hp op
  | orFilter ht hp => exact (h.setLastOp .filter .or).predicateWith .filter ht hp "AND"
  | andFilter ht hp => exact (h.setLastOp .filter .and).predicateWith .filter ht hp "AND"
  | filterIn field hv => exact h.filterIn field hv
  | filterInSub field hsub => exact h.filterInSub field (hS _ _ hsub)
  | search hf hterm => exact h.search (hf.mono hS) hterm
  | having ht hp => exact h.predicateWith .having ht hp "AND"
  | havingWith op ht hp => exact h.predicateWith .having ht hp op
  | orHaving ht hp => exact (h.setLastOp .having .or).predicateWith .having ht hp "AND"
  | connect op =>
    unfold Statement.apply Statement.connect
    rw [← h.lastPredicate]
    exact h.setLastOp _ op
  | groupBy hf => exact h.groupBy (hf.mono hS)
  | orderBy direction hf => exact h.orderBy (hf.mono hS) direction
  | limit offset count => exact h.limit offset count
  | reset => exact h.reset

theorem run_alike {S : Statement → Statement → Prop}
    (hS : ∀ s t, S s t → StatementAlike R s t) {cs ds : List Call}
    (hcd : Forall₂ (CallAlike R S) cs ds) (h : StatementAlike R s t) :
    StatementAlike R (s.run cs) (t.run ds) := by
  induction hcd generalizing s t with
  | nil => exact h
  | cons hc _ ih => exact ih (apply_alike hS hc h)

theorem CallAlike.built {S : Statement → Statement → Prop} {c d : Call}
    (h : CallAlike R S c d) : c.Built := by
  cases h <;> trivial

theorem engine_run {S : Statement → Statement → Prop} {cs ds : List Call}
    (h : Forall₂ (CallAlike R S) cs ds) (s : Statement) : (s.run cs).engine = s.engine := by
  have hbuilt : ∀ c ∈ cs, c.Built := by
    induction h with
    | nil =>
      intro _ hc
      exact absurd hc List.not_mem_nil
    | cons hcd _ ih => exact List.forall_mem_cons.mpr ⟨hcd.built, ih⟩
  exact congrArg Dialect.engine (Statement.dialect_edits (Statement.edits_run s hbuilt))

/-- Statements built by the same calls but for payloads. Statements nest less than `n` deep
in them. -/
def Twin (R : List Char → List Char → Prop) : Nat → Statement → Statement → Prop
  | 0, _, _ => False
  | n + 1, s, t => ∃ d cs ds, Forall₂ (CallAlike R (Twin R n)) cs ds ∧
      s = (Statement.new d).run cs ∧ t = (Statement.new d).run ds

theorem Twin.alike {n : Nat} (h : Twin R n s t) : StatementAlike R s t := by
  induction n generalizing s t with
  | zero => exact h.elim
  | succ n ih =>
    obtain ⟨d, cs, ds, hcd, rfl, rfl⟩ := h
    exact run_alike (fun _ _ => ih) hcd (.new d)

/-- Other payloads never change how an engine cuts the rendered text into tokens: each token
stays what it is, or is a literal that holds the one payload instead of the other. -/
theorem tokens_alike_of_payloads (d : Dialect) {n : Nat} {cs ds : List Call}
    (h : Forall₂ (CallAlike R (Twin R n)) cs ds) (layout : Layout) :
    Outcome.Alike (fun a b => TextAlike R d.engine a.toList b.toList)
      (((Statement.new d).run cs).toSql layout) (((Statement.new d).run ds).toSql layout) := by
  have hrun := run_alike (fun _ _ => Twin.alike) h (.new d)
  have hengine : ((Statement.new d).run cs).engine = d.engine := engine_run h (.new d)
  apply (checked_alike hrun).bind
  intro a b hab
  rw [hengine] at hab
  exact render_alike hab layout

def userLookup (payload : String) : List Call :=
  [.table "users",
   .filter "name = ? OR name IN (?)" [.text payload, .list [.null, .text payload]],
   .filterInSub "id" ((Statement.new .postgres).run
     [.table "logins", .select (.text "user_id"), .filter "agent = ?" [.text payload]]),
   .search (.list ["bio"]) payload]

/-- The payloads `rose` and `\' OR 1 = 1 --`. -/
def RoseOrHostile (a b : List Char) : Prop :=
  a = "rose".toList ∧ b = "\\' OR 1 = 1 --".toList

theorem userLookup_alike : Forall₂ (CallAlike RoseOrHostile (Twin RoseOrHostile 1))
    (userLookup "rose") (userLookup "\\' OR 1 = 1 --") := by
  have hvalue : ValueAlike RoseOrHostile (.text "rose") (.text "\\' OR 1 = 1 --") :=
    .text ⟨rfl, rfl⟩
  have hlist : ValueAlike RoseOrHostile (.list [.null, .text "rose"])
      (.list [.null, .text "\\' OR 1 = 1 --"]) := .list (.cons .null (.cons hvalue .nil))
  refine .cons (.table _) (.cons (.filter ⟨by decide, by decide⟩ ?_)
    (.cons (.filterInSub _ ?_) (.cons (.search (.list _) ?_) .nil)))
  · exact .value (by decide) hvalue (.value (by decide) hlist (.rest _ _))
  · refine ⟨.postgres, _, _, ?_, rfl, rfl⟩
    refine .cons (.table _) (.cons (.select (.text _))
      (.cons (.filter ⟨by decide, by decide⟩ ?_) .nil))
    exact .value (by decide) hvalue (.rest _ _)
  · exact .payload (by decide) (by decide) ⟨by decide, by decide⟩

/-- The hostile text renders, and to the same tokens as the harmless one. -/
theorem tokens_alike_of_hostile_lookup :
    Forall₂ (CallAlike RoseOrHostile (Twin RoseOrHostile 1)) (userLookup "rose")
      (userLookup "\\' OR 1 = 1 --") ∧
    (((Statement.new .postgres).run (userLookup "\\' OR 1 = 1 --")).toSql .pretty).toOption.isSome ∧
    Outcome.Alike (fun a b => TextAlike RoseOrHostile .postgres a.toList b.toList)
      (((Statement.new .postgres).run (userLookup "rose")).toSql .pretty)
      (((Statement.new .postgres).run (userLookup "\\' OR 1 = 1 --")).toSql .pretty) :=
  ⟨userLookup_alike, by decide +kernel, tokens_alike_of_payloads .postgres userLookup_alike .pretty⟩

end SqlBuilder.Payload
