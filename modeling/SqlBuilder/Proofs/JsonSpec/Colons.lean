import SqlBuilder.Proofs.JsonSpec.Separators

/-!
# Items cut at a colon

A text is told to be an object by a colon at its top level, but its items are cut at their first
colon of all. The two agree on an item unless its first colon with something behind it stands
inside quotes or parentheses: then the key ends there, and what is left of the quote or of the
parentheses goes with the value.
-/
namespace SqlBuilder.JsonSpec

variable {item name value : List Char}

/-- The first colon at the top level of the item stands between a name and a value, and both
show something. -/
structure PairAtTop (item name value : List Char) : Prop where
  spelled : item = name ++ ':' :: value
  pieces : Text.splitTop ':' item = name :: Text.splitTop ':' value
  name_shown : Text.allBlank name = false
  value_shown : Text.allBlank value = false

instance (item name value : List Char) : Decidable (PairAtTop item name value) :=
  decidable_of_iff (item = name ++ ':' :: value ∧
      Text.splitTop ':' item = name :: Text.splitTop ':' value ∧
      Text.allBlank name = false ∧ Text.allBlank value = false)
    ⟨fun ⟨h, h', hn, hv⟩ => ⟨h, h', hn, hv⟩, fun ⟨h, h', hn, hv⟩ => ⟨h, h', hn, hv⟩⟩

/-- The first colon stands at the top level, unless nothing shows behind it. -/
def FirstColonAtTop (item : List Char) : Prop :=
  ∀ name value, item = name ++ ':' :: value → ':' ∉ name → Text.allBlank value = false →
    Text.Scan.start.after name = .start

theorem PairAtTop.returns (h : PairAtTop item name value) : Text.Returns ':' .start name := by
  have hpieces := h.pieces
  rwa [h.spelled, Text.splitTop_append_sep_iff rfl] at hpieces

theorem pairAtTop_append (hreturns : Text.Returns ':' .start name)
    (hname : Text.allBlank name = false) (hvalue : Text.allBlank value = false) :
    PairAtTop (name ++ ':' :: value) name value :=
  ⟨rfl, (Text.splitTop_append_sep_iff rfl).mpr hreturns, hname, hvalue⟩

theorem splitPair_of_notMem (h : ':' ∉ item) :
    splitPair item = .error (.ambiguousJson (.unpaired (String.ofList item))) := by
  have hdrop : item.dropWhile (· ≠ ':') = [] := by
    rw [List.dropWhile_eq_nil_iff]
    intro c hc
    rw [decide_eq_true_eq]
    rintro rfl
    exact h hc
  rw [splitPair, hdrop]

theorem splitPair_cases (item : List Char) :
    (∃ name value, item = name ++ ':' :: value ∧ ':' ∉ name ∧ Text.allBlank name = false ∧
      Text.allBlank value = false ∧ splitPair item = .ok (name, value)) ∨
    splitPair item = .error (.ambiguousJson (.unpaired (String.ofList item))) := by
  by_cases hitem : ':' ∈ item
  · obtain ⟨name, value, rfl, hcolon⟩ := List.eq_append_cons_of_mem hitem
    by_cases hblank : (Text.allBlank name || Text.allBlank value) = true
    · right
      rw [splitPair_first_colon hcolon, if_pos hblank]
    · left
      obtain ⟨hname, hvalue⟩ := Bool.or_eq_false_iff.mp (Bool.eq_false_iff.mpr hblank)
      exact ⟨name, value, rfl, hcolon, hname, hvalue, splitPair_append hcolon hname hvalue⟩
  · right
    exact splitPair_of_notMem hitem

theorem splitPair_eq_ok_iff :
    splitPair item = .ok (name, value) ↔ item = name ++ ':' :: value ∧ ':' ∉ name ∧
      Text.allBlank name = false ∧ Text.allBlank value = false := by
  constructor
  · intro h
    rcases splitPair_cases item with ⟨_, _, hitem, hcolon, hname, hvalue, hsplit⟩ | herror
    · rw [h] at hsplit
      cases hsplit
      exact ⟨hitem, hcolon, hname, hvalue⟩
    · rw [h] at herror
      cases herror
  · rintro ⟨rfl, hcolon, hname, hvalue⟩
    exact splitPair_append hcolon hname hvalue

theorem splitPair_error {err : SqlError} (h : splitPair item = .error err) :
    err = .ambiguousJson (.unpaired (String.ofList item)) := by
  rcases splitPair_cases item with ⟨_, _, -, -, -, -, hsplit⟩ | herror
  · rw [h] at hsplit
    cases hsplit
  · rw [h] at herror
    cases herror
    rfl

theorem suffix_behind_first_colon {before behind : List Char} (hbefore : ':' ∉ before)
    (h : before ++ ':' :: behind = name ++ ':' :: value) : value <:+ behind := by
  obtain ⟨m, -, hbehind⟩ | ⟨m, rfl, hvalue⟩ := List.append_eq_append_iff.mp h
  · cases m with
    | nil => exact ⟨[], (List.cons.inj hbehind).2.symm⟩
    | cons c m =>
      rw [(List.cons.inj hbehind).2]
      exact ⟨m ++ [':'], List.append_assoc m [':'] value⟩
  · cases m with
    | nil => exact ⟨[], (List.cons.inj hvalue).2⟩
    | cons c m =>
      rw [← (List.cons.inj hvalue).1] at hbefore
      exact absurd (List.mem_append_right name List.mem_cons_self) hbefore

/-- Cut at its first colon, such an item reads as the pair that it is at the top level. -/
theorem FirstColonAtTop.pairAtTop (h : FirstColonAtTop item)
    (hsplit : splitPair item = .ok (name, value)) : PairAtTop item name value := by
  obtain ⟨hitem, hcolon, hname, hvalue⟩ := splitPair_eq_ok_iff.mp hsplit
  have hafter := h name value hitem hcolon hvalue
  subst hitem
  exact pairAtTop_append ⟨Text.uncut_of_notMem hcolon .start, hafter⟩ hname hvalue

theorem FirstColonAtTop.splitPair (h : FirstColonAtTop item)
    (hpair : PairAtTop item name value) : JsonSpec.splitPair item = .ok (name, value) := by
  have hitem : ':' ∈ item := by
    rw [hpair.spelled]
    exact List.mem_append_right name List.mem_cons_self
  obtain ⟨before, behind, rfl, hbefore⟩ := List.eq_append_cons_of_mem hitem
  have hsuffix := suffix_behind_first_colon hbefore hpair.spelled
  obtain ⟨c, hc, hshown⟩ := List.all_eq_false.mp hpair.value_shown
  have hbehind : Text.allBlank behind = false :=
    List.all_eq_false.mpr ⟨c, hsuffix.subset hc, hshown⟩
  have hreturns : Text.Returns ':' .start before :=
    ⟨Text.uncut_of_notMem hbefore .start, h before behind rfl hbefore hbehind⟩
  -- The first piece at the top level is what stands before the first colon.
  have hfirst : before = name :=
    (List.cons.inj (((Text.splitTop_append_sep_iff rfl).mpr hreturns).symm.trans
      hpair.pieces)).1
  subst hfirst
  obtain ⟨-, hvalue⟩ := List.cons.inj (List.append_cancel_left hpair.spelled)
  rw [hvalue]
  exact splitPair_append hbefore hpair.name_shown hpair.value_shown

/-- An item is cut at its first colon, wherever that one stands, if both sides show something.
This is the pair that it spells at the top level, and no pair where it spells none, if and only if
that first colon stands at the top level or nothing shows behind it. -/
theorem splitPair_at_top_iff (item : List Char) :
    (∀ name value, splitPair item = .ok (name, value) ↔ item = name ++ ':' :: value ∧
      ':' ∉ name ∧ Text.allBlank name = false ∧ Text.allBlank value = false) ∧
    (∀ err, splitPair item = .error err →
      err = .ambiguousJson (.unpaired (String.ofList item))) ∧
    ((∀ name value, splitPair item = .ok (name, value) ↔ PairAtTop item name value) ↔
      FirstColonAtTop item) := by
  refine ⟨fun name value => splitPair_eq_ok_iff, fun err => splitPair_error,
    ⟨fun h => ?_, fun h name value => ⟨h.pairAtTop, h.splitPair⟩⟩⟩
  intro name value hitem hcolon hvalue
  cases hname : Text.allBlank name with
  | true => exact Text.after_blanks hname
  | false =>
    have hsplit := splitPair_eq_ok_iff.mpr ⟨hitem, hcolon, hname, hvalue⟩
    exact ((h name value).mp hsplit).returns.after

/-- A colon inside a quoted key, or inside parentheses, ends the key. -/
theorem hidden_colons_end_keys :
    PairAtTop "'a:b':c".toList "'a:b'".toList ['c'] ∧
    splitPair "'a:b':c".toList = .ok ("'a".toList, "b':c".toList) ∧
    compile .mysql (.text "'a:b':c") .object = .ok "json_object('\\'a', \x60b':c\x60)" ∧
    PairAtTop "f(a:b):c".toList "f(a:b)".toList ['c'] ∧
    splitPair "f(a:b):c".toList = .ok ("f(a".toList, "b):c".toList) :=
  ⟨by decide, rfl, Outcome.eq_ok_of_toOption (by decide +kernel), by decide, rfl⟩

end SqlBuilder.JsonSpec
