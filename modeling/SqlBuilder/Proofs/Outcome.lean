import Mathlib.Data.List.Forall2
import SqlBuilder.Error

/-!
# Outcomes alike

Two computations that fail with the same kind of error or give related results. The
relation passes through sequencing and through lists, so related programs need only be
related step by step.
-/
namespace SqlBuilder.Outcome

open List (Forall₂)

variable {α β γ δ : Type} {P : α → β → Prop} {Q : γ → δ → Prop}

inductive Alike (P : α → β → Prop) : Outcome α → Outcome β → Prop where
  | ok {a b} : P a b → Alike P (.ok a) (.ok b)
  | error {x y : SqlError} : x.kind = y.kind → Alike P (.error x) (.error y)

namespace Alike

theorem refl {P : α → α → Prop} (x : Outcome α) (h : ∀ a, x = .ok a → P a a) : Alike P x x := by
  cases x with
  | ok a => exact .ok (h a rfl)
  | error e => exact .error rfl

theorem bind {x : Outcome α} {y : Outcome β} {f : α → Outcome γ} {g : β → Outcome δ}
    (hxy : Alike P x y) (h : ∀ a b, P a b → Alike Q (f a) (g b)) :
    Alike Q (x >>= f) (y >>= g) := by
  cases hxy with
  | ok hab => exact h _ _ hab
  | error hk => exact .error hk

theorem bind_left (x : Outcome γ) {f : γ → Outcome α} {g : γ → Outcome β}
    (h : ∀ c, Alike P (f c) (g c)) : Alike P (x >>= f) (x >>= g) := by
  cases x with
  | error e => exact .error rfl
  | ok c => exact h c

theorem map {x : Outcome α} {y : Outcome β} {f : α → γ} {g : β → δ}
    (hxy : Alike P x y) (h : ∀ a b, P a b → Q (f a) (g b)) :
    Alike Q (x.map f) (y.map g) := by
  cases hxy with
  | ok hab => exact .ok (h _ _ hab)
  | error hk => exact .error hk

theorem mapM {xs : List α} {ys : List β} {f : α → Outcome γ} {g : β → Outcome δ}
    (hxy : Forall₂ P xs ys) (h : ∀ a b, P a b → Alike Q (f a) (g b)) :
    Alike (Forall₂ Q) (xs.mapM f) (ys.mapM g) := by
  induction hxy with
  | nil => exact .ok .nil
  | cons hab _ ih =>
    rw [List.mapM_cons, List.mapM_cons]
    apply bind (h _ _ hab)
    intro c d hcd
    exact bind ih fun cs ds hs => .ok (.cons hcd hs)

theorem mapM_same (xs : List α) {f : α → Outcome γ} {g : α → Outcome δ}
    (h : ∀ x ∈ xs, Alike Q (f x) (g x)) : Alike (Forall₂ Q) (xs.mapM f) (xs.mapM g) := by
  have hsame : Forall₂ (fun x y => x ∈ xs ∧ x = y) xs xs :=
    List.forall₂_same.mpr fun x hx => ⟨hx, rfl⟩
  refine mapM hsame ?_
  rintro x _ ⟨hx, rfl⟩
  exact h x hx

theorem foldlM {xs : List α} {ys : List β} {f : γ → α → Outcome γ} {g : δ → β → Outcome δ}
    (hxy : Forall₂ P xs ys)
    (h : ∀ s t a b, Q s t → P a b → Alike Q (f s a) (g t b)) {s : γ} {t : δ} (hst : Q s t) :
    Alike Q (xs.foldlM f s) (ys.foldlM g t) := by
  induction hxy generalizing s t with
  | nil => exact .ok hst
  | cons hab _ ih =>
    rw [List.foldlM_cons, List.foldlM_cons]
    exact bind (h _ _ _ _ hst hab) fun s' t' hs => ih hs

end Alike

theorem Alike.eq_or_errors {x y : Outcome α} (h : Alike (· = ·) x y) :
    (∃ a, x = .ok a ∧ y = .ok a) ∨
      ∃ e e' : SqlError, e.kind = e'.kind ∧ x = .error e ∧ y = .error e' := by
  cases h with
  | ok hab => exact .inl ⟨_, rfl, congrArg Except.ok hab.symm⟩
  | error hkind => exact .inr ⟨_, _, hkind, rfl, rfl⟩

/-- Both succeed, or both fail with the same kind of error. -/
abbrev SameEnd (x : Outcome α) (y : Outcome β) : Prop := Alike (fun _ _ => True) x y

theorem Alike.sameEnd {x : Outcome α} {y : Outcome β} (h : Alike P x y) : SameEnd x y := by
  cases h with
  | ok _ => exact .ok trivial
  | error hk => exact .error hk

theorem SameEnd.isSome_eq {x : Outcome α} {y : Outcome β} (h : SameEnd x y) :
    x.toOption.isSome = y.toOption.isSome := by
  cases h <;> rfl

/-- The same error, or related results. -/
inductive Same (P : α → β → Prop) : Outcome α → Outcome β → Prop where
  | ok {a b} : P a b → Same P (.ok a) (.ok b)
  | error (e : SqlError) : Same P (.error e) (.error e)

theorem Same.bind {x : Outcome α} {y : Outcome β} {f : α → Outcome γ} {g : β → Outcome δ}
    (hxy : Same P x y) (h : ∀ a b, P a b → Same Q (f a) (g b)) :
    Same Q (x >>= f) (y >>= g) := by
  cases hxy with
  | ok hab => exact h _ _ hab
  | error e => exact .error e

theorem Same.map {x : Outcome α} {y : Outcome β} {f : α → γ} {g : β → δ}
    (hxy : Same P x y) (h : ∀ a b, P a b → Q (f a) (g b)) : Same Q (x.map f) (y.map g) := by
  cases hxy with
  | ok hab => exact .ok (h _ _ hab)
  | error e => exact .error e

theorem Same.mapM {ι κ : Type} {R : ι → κ → Prop} {is : List ι} {ks : List κ}
    {f : ι → Outcome α} {g : κ → Outcome β} (h : Forall₂ R is ks)
    (hstep : ∀ i k, R i k → Same P (f i) (g k)) :
    Same (Forall₂ P) (is.mapM f) (ks.mapM g) := by
  induction h with
  | nil => exact .ok .nil
  | cons hik _ ih =>
    rw [List.mapM_cons, List.mapM_cons]
    apply bind (hstep _ _ hik)
    intro a b hab
    exact bind ih fun as bs hs => .ok (.cons hab hs)

theorem Same.eq_map {x : Outcome α} {y : Outcome β} {f : α → β} (hxy : Same P x y)
    (h : ∀ a b, P a b → f a = b) : y = x.map f := by
  cases hxy with
  | ok hab => exact congrArg Except.ok (h _ _ hab).symm
  | error e => rfl

theorem Same.bind_left (x : Outcome γ) {f : γ → Outcome α} {g : γ → Outcome β}
    (h : ∀ c, x = .ok c → Same P (f c) (g c)) : Same P (x >>= f) (x >>= g) := by
  cases x with
  | error e => exact .error e
  | ok c => exact h c rfl

theorem eq_ok_of_toOption {x : Outcome α} {a : α} (h : x.toOption = some a) : x = .ok a := by
  cases x with
  | ok b => exact congrArg Except.ok (Option.some.inj h)
  | error e => cases h

theorem exists_of_map_eq_ok {x : Outcome α} {f : α → γ} {c : γ} (h : x.map f = .ok c) :
    ∃ a, x = .ok a ∧ f a = c := by
  cases x with
  | error e => cases h
  | ok a => exact ⟨a, rfl, Except.ok.inj h⟩

theorem map_bind (x : Outcome α) (f : α → Outcome β) (g : β → γ) :
    (x >>= f).map g = x >>= fun a => (f a).map g := by
  cases x <;> rfl

theorem mapM_map (xs : List α) (f : α → Outcome β) (g : β → γ) :
    (xs.mapM fun x => (f x).map g) = (xs.mapM f).map (List.map g) := by
  induction xs with
  | nil => rfl
  | cons x xs ih =>
    rw [List.mapM_cons, List.mapM_cons, ih]
    cases f x with
    | error e => rfl
    | ok b => cases xs.mapM f <;> rfl

theorem exists_of_bind_eq_ok {x : Outcome α} {f : α → Outcome γ} {c : γ}
    (h : x >>= f = .ok c) : ∃ a, x = .ok a ∧ f a = .ok c := by
  cases x with
  | error e => cases h
  | ok a => exact ⟨a, rfl, h⟩

theorem foldlM_keeps (I : γ → Prop) {f : γ → α → Outcome γ} {xs : List α} {c c' : γ}
    (hstep : ∀ {c x c'}, I c → f c x = .ok c' → I c') (hc : I c)
    (h : xs.foldlM f c = .ok c') : I c' := by
  induction xs generalizing c with
  | nil =>
    cases h
    exact hc
  | cons x xs ih =>
    rw [List.foldlM_cons] at h
    obtain ⟨b, hb, h⟩ := exists_of_bind_eq_ok h
    exact ih (hstep hc hb) h

theorem forall₂_of_mapM_eq_ok {xs : List α} {f : α → Outcome γ} {cs : List γ}
    (h : xs.mapM f = .ok cs) : Forall₂ (fun a c => f a = .ok c) xs cs := by
  induction xs generalizing cs with
  | nil =>
    cases h
    exact .nil
  | cons x xs ih =>
    rw [List.mapM_cons] at h
    obtain ⟨c, hc, h⟩ := exists_of_bind_eq_ok h
    obtain ⟨cs, hcs, h⟩ := exists_of_bind_eq_ok h
    cases h
    exact .cons hc (ih hcs)

theorem attach_mapM (xs : List α) (f : α → Outcome γ) :
    (xs.attach.mapM fun x => f x.1) = xs.mapM f := by
  conv_rhs => rw [← List.attach_map_subtype_val xs, List.mapM_map]
  rfl

theorem forall₂_of_attach_mapM_eq_ok {xs : List α} {f : α → Outcome γ} {cs : List γ}
    (h : (xs.attach.mapM fun x => f x.1) = .ok cs) :
    Forall₂ (fun x c => x ∈ xs ∧ f x = .ok c) xs cs := by
  rw [← List.attach_map_subtype_val xs, List.forall₂_map_left_iff]
  refine (forall₂_of_mapM_eq_ok h).imp fun x c hx => ⟨?_, hx⟩
  rw [List.attach_map_subtype_val]
  exact x.2

theorem mapM_eq_ok_of_forall₂ {xs : List α} {f : α → Outcome γ} {cs : List γ}
    (h : Forall₂ (fun a c => f a = .ok c) xs cs) : xs.mapM f = .ok cs := by
  induction h with
  | nil => rfl
  | cons hac _ ih =>
    rw [List.mapM_cons, hac, ih]
    rfl

theorem exists_of_mem_right {xs : List α} {ys : List β} (h : Forall₂ P xs ys) {y : β}
    (hy : y ∈ ys) : ∃ x ∈ xs, P x y := by
  induction h with
  | nil => exact absurd hy List.not_mem_nil
  | cons hxy _ ih =>
    rcases List.mem_cons.mp hy with rfl | hy
    · exact ⟨_, List.mem_cons_self, hxy⟩
    · obtain ⟨x, hx, hxy⟩ := ih hy
      exact ⟨x, List.mem_cons_of_mem _ hx, hxy⟩

theorem exists_of_mem_left {xs : List α} {ys : List β} (h : Forall₂ P xs ys) {x : α}
    (hx : x ∈ xs) : ∃ y ∈ ys, P x y :=
  exists_of_mem_right (P := fun y x => P x y) h.flip hx

theorem exists_snoc_of_forall₂ {xs : List α} {x : α} {ys : List β}
    (h : Forall₂ P (xs ++ [x]) ys) : ∃ ys' y, ys = ys' ++ [y] ∧ Forall₂ P xs ys' ∧ P x y := by
  induction xs generalizing ys with
  | nil =>
    cases h with | cons hxy hnil =>
    cases hnil
    exact ⟨[], _, rfl, .nil, hxy⟩
  | cons x' xs ih =>
    cases h with | cons hxy htail =>
    obtain ⟨ys', y, rfl, hys, hlast⟩ := ih htail
    exact ⟨_ :: ys', y, rfl, .cons hxy hys, hlast⟩

theorem isEmpty_eq {xs : List α} {ys : List β} (h : Forall₂ P xs ys) :
    xs.isEmpty = ys.isEmpty := by
  cases h <;> rfl

theorem concat_of_forall₂ {xs : List α} {ys : List β} (h : Forall₂ P xs ys) :
    (xs = [] ∧ ys = []) ∨
      ∃ xs' x ys' y, xs = xs' ++ [x] ∧ ys = ys' ++ [y] ∧ Forall₂ P xs' ys' ∧ P x y := by
  induction h with
  | nil => exact .inl ⟨rfl, rfl⟩
  | @cons a b xs ys hab hrest ih =>
    rcases ih with ⟨rfl, rfl⟩ | ⟨xs', x, ys', y, rfl, rfl, hs, hxy⟩
    · exact .inr ⟨[], a, [], b, rfl, rfl, .nil, hab⟩
    · exact .inr ⟨a :: xs', x, b :: ys', y, rfl, rfl, .cons hab hs, hxy⟩

theorem exists_forall₂ {xs : List α} (h : ∀ x ∈ xs, ∃ y, P x y) : ∃ ys, Forall₂ P xs ys := by
  induction xs with
  | nil => exact ⟨[], .nil⟩
  | cons x xs ih =>
    rw [List.forall_mem_cons] at h
    obtain ⟨y, hxy⟩ := h.1
    obtain ⟨ys, hys⟩ := ih h.2
    exact ⟨y :: ys, .cons hxy hys⟩

theorem mem_of_mapM_eq_ok {xs : List α} {f : α → Outcome γ} {cs : List γ}
    (h : xs.mapM f = .ok cs) {c : γ} (hc : c ∈ cs) : ∃ a ∈ xs, f a = .ok c :=
  exists_of_mem_right (forall₂_of_mapM_eq_ok h) hc

end SqlBuilder.Outcome
