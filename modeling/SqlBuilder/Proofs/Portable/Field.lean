import SqlBuilder.Proofs.Simulation
import SqlBuilder.Proofs.Portable.Render
import SqlBuilder.Proofs.Portable.Row

/-!
# Fields in two engines

A statement and its counterpart in another engine have snapshots of one shape and hold the same
kind of error, if any. So a field that holds the one gives fragments of the shape of those that
it gives with the other in its place.
-/
namespace SqlBuilder.Portable

open List (Forall₂)
open Outcome (Alike SameEnd)

variable {e e' : Engine}

/-- Built for two engines by the same calls, none of which limits the rows. No server version
is known. -/
structure Counterpart (e e' : Engine) (s t : Statement) : Prop where
  dialect : s.dialect = ⟨e, none⟩
  dialect' : t.dialect = ⟨e', none⟩
  aliasName : s.aliasName = t.aliasName
  insertColumns : Forall₂ (SameName e e') s.insertColumns t.insertColumns
  lastPredicate : s.lastPredicate = t.lastPredicate
  error : s.error.map SqlError.kind = t.error.map SqlError.kind
  state : s.state.SameShape t.state
  unlimited : s.state.clause .limit = []

namespace Counterpart

variable {s t : Statement}

theorem engine (h : Counterpart e e' s t) : s.engine = e := congrArg Dialect.engine h.dialect

theorem engine' (h : Counterpart e e' s t) : t.engine = e' := congrArg Dialect.engine h.dialect'

theorem unlimited' (h : Counterpart e e' s t) : t.state.clause .limit = [] := by
  have hlimit := h.state.clause .limit
  rw [h.unlimited] at hlimit
  exact List.forall₂_nil_left_iff.mp hlimit

theorem new (e e' : Engine) : Counterpart e e' (.new ⟨e, none⟩) (.new ⟨e', none⟩) :=
  ⟨rfl, rfl, rfl, .nil, rfl, rfl, .refl .empty, rfl⟩

/-- The clauses may change, as long as no limit comes with the change. -/
theorem withState (h : Counterpart e e' s t) {a b : Snapshot} (hab : a.SameShape b)
    (hlimit : a.clause .limit = []) :
    Counterpart e e' { s with state := a } { t with state := b } :=
  { h with
    state := hab
    unlimited := hlimit }

theorem switchKind (h : Counterpart e e' s t) (kind : StatementKind) :
    Counterpart e e' (s.switchKind kind) (t.switchKind kind) := by
  have hkind : s.kind = t.kind := h.state.kind
  rw [Statement.switchKind, Statement.switchKind, ← hkind]
  cases s.kind with
  | none => exact h.withState (h.state.withKind _) h.unlimited
  | some k =>
    dsimp only
    by_cases hk : k = kind
    · rw [if_pos hk, if_pos hk]
      exact h
    · rw [if_neg hk, if_neg hk]
      exact { h with
        insertColumns := .nil
        lastPredicate := rfl
        state := h.state.clear.withKind _
        unlimited := Snapshot.clause_clear s.state .limit }

theorem simulation (e e' : Engine) : Statement.Simulation (Counterpart e e') where
  error h := h.error
  fail h hk := { h with error := congrArg some hk }
  switch kind _ _ h := h.switchKind kind

theorem checked (h : Counterpart e e' s t) : Alike Snapshot.SameShape s.checked t.checked :=
  Statement.checked_alike h.error h.state

theorem nested (h : Counterpart e e' s t) :
    Alike Snapshot.SameShape (s.nested e) (t.nested e') := by
  rw [Statement.nested, Statement.nested, if_neg (not_not_intro h.engine),
    if_neg (not_not_intro h.engine')]
  exact h.checked.map fun _ _ hab => hab.nested

end Counterpart

/-- The same field, but for the statement in it. -/
inductive FieldPair (S : Statement → Statement → Prop) : Field → Field → Prop where
  | text (s : String) : FieldPair S (.text s) (.text s)
  | list (names : List String) : FieldPair S (.list names) (.list names)
  | ident (name : String) : FieldPair S (.ident name) (.ident name)
  | raw (sql : String) : FieldPair S (.raw sql) (.raw sql)
  | statement {s t : Statement} : S s t → FieldPair S (.statement s) (.statement t)

namespace FieldPair

variable {S S' : Statement → Statement → Prop} {f g : Field}

theorem mono (hS : ∀ s t, S s t → S' s t) (h : FieldPair S f g) : FieldPair S' f g := by
  cases h with
  | text s => exact .text s
  | list names => exact .list names
  | ident name => exact .ident name
  | raw sql => exact .raw sql
  | statement hst => exact .statement (hS _ _ hst)

theorem hasNoSearchField (h : FieldPair S f g) :
    Statement.hasNoSearchField f = Statement.hasNoSearchField g := by
  cases h <;> rfl

theorem requireName (h : FieldPair (Counterpart e e') f g) (place : NamedPlace) :
    f.requireName place = g.requireName place := by
  have hunnamed : f.isUnnamed = g.isUnnamed := by
    cases h with
    | statement hst => exact congrArg Option.isNone hst.aliasName
    | text _ | list _ | ident _ | raw _ => rfl
  rw [Field.requireName, Field.requireName, hunnamed]

end FieldPair

theorem quoteAliased_end (e e' : Engine) (whole : String) (segment : List Char) :
    SameEnd (Field.quoteAliased e whole segment) (Field.quoteAliased e' whole segment) := by
  unfold Field.quoteAliased
  dsimp only
  split
  · exact .error rfl
  split
  · exact quoteIdent_end e e' _
  · exact (quoteIdent_end e e' _).bind fun _ _ _ =>
      (quoteIdent_end e e' _).bind fun _ _ _ => .ok trivial

theorem statementFragment_alike {s t : Statement} (h : Counterpart e e' s t) :
    Alike Fragment.SameShape (Field.statementFragment e s) (Field.statementFragment e' t) := by
  rw [Field.statementFragment, Field.statementFragment, ← h.aliasName]
  apply h.nested.bind
  intro a b hab
  cases s.aliasName with
  | none => exact .ok (.mk _ (.cons (.sub hab) .nil))
  | some name =>
    exact (quoteIdent_end e e' name).bind fun text text' _ =>
      .ok (.mk _ (.cons (.sub hab) (.cons (.sql _ _) .nil)))

theorem texts_alike {α : Type} (xs : List α) {f g : α → Outcome String}
    (h : ∀ x ∈ xs, SameEnd (f x) (g x)) :
    Alike (Forall₂ Fragment.SameShape) (xs.mapM fun x => (f x).map Fragment.ofText)
      (xs.mapM fun x => (g x).map Fragment.ofText) :=
  Alike.mapM_same xs fun x hx => (h x hx).map fun a b _ => .ofText a b

theorem fragments_alike {f g : Field} (h : FieldPair (Counterpart e e') f g) :
    Alike (Forall₂ Fragment.SameShape) (f.fragments e) (g.fragments e') := by
  cases h with
  | text s => exact texts_alike _ fun segment _ => quoteAliased_end e e' s segment
  | list names =>
    cases names with
    | nil => exact .error rfl
    | cons name names => exact texts_alike _ fun name _ => quoteAliased_end e e' name name.toList
  | ident name => exact (quoteIdent_end e e' name).map fun a b _ => .cons (.ofText a b) .nil
  | raw sql => exact .ok (.cons (.ofText _ _) .nil)
  | statement hst => exact (statementFragment_alike hst).map fun a b hab => .cons hab .nil

theorem joined_alike {f g : Field} (h : FieldPair (Counterpart e e') f g) :
    Alike Fragment.SameShape (f.joined e) (g.joined e') := by
  rw [Field.joined, Field.joined]
  apply (fragments_alike h).bind
  intro fs gs hfg
  cases hfg with
  | nil => exact .error rfl
  | cons hab hrest =>
    exact .ok (List.rel_foldl (fun _ _ h _ _ h' => h.join ", " h') hab hrest)

theorem searchColumn_end {f g : Fragment} (h : f.SameShape g) :
    SameEnd (Statement.searchColumn f) (Statement.searchColumn g) := by
  rw [Statement.searchColumn, Statement.searchColumn, ← h.hasSub]
  split
  · exact .error rfl
  · exact fragment_end h .compact 0

end SqlBuilder.Portable
