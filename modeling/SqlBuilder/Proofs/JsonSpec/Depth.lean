import SqlBuilder.Proofs.JsonSpec.Arity
import SqlBuilder.Proofs.JsonSpec.Recursion

/-!
# Calls in one another

Read back, what is written for a text has parentheses in one another only where the text has
colons or commas for them: each call takes one separator away from the texts inside. With the
recursion over these texts this says what it takes to resolve a text, and what comes out.
-/
namespace SqlBuilder

open Arguments

namespace Arguments

mutual

/-- How many pairs of parentheses stand in one another. -/
def Node.depth : Node → Nat
  | .token _ => 0
  | .group args => 1 + depthOfAll args

def depthOf : List Node → Nat
  | [] => 0
  | n :: ns => max n.depth (depthOf ns)

def depthOfAll : List (List Node) → Nat
  | [] => 0
  | arg :: args => max (depthOf arg) (depthOfAll args)

end

theorem IsExpr.depthOf_eq {arg : Arg} (h : IsExpr arg) : depthOf arg = 0 := by
  obtain ⟨-, htokens⟩ := h
  induction arg with
  | nil => rfl
  | cons n ns ih =>
    rw [List.forall_mem_cons] at htokens
    obtain ⟨⟨t, rfl⟩, hns⟩ := htokens
    rw [depthOf, ih hns]
    rfl

theorem depthOf_call (t : Lexer.Token) (args : List Arg) :
    depthOf [.token t, .group args] = 1 + depthOfAll args := by
  simp [depthOf, Node.depth]

end Arguments

namespace JsonSpec

variable {e : Engine} {cs : List Char}

theorem FitsMembers.depth_le {ms : List (List Char × JsonSpec)} {args : List Arg} {k : Nat}
    (h : FitsMembers e ms args)
    (hms : ∀ m ∈ ms, ∀ arg, Fits e m.2 arg → depthOf arg ≤ k) : depthOfAll args ≤ k := by
  induction ms generalizing args with
  | nil =>
    cases h
    exact Nat.zero_le k
  | cons m ms ih =>
    rw [List.forall_mem_cons] at hms
    cases h with | cons harg hrest =>
    have hkey (key : List Char) : depthOf [.token (.literal key)] = 0 := rfl
    rw [depthOfAll, depthOfAll, hkey, Nat.zero_max]
    exact Nat.max_le.mpr ⟨hms.1 _ harg, ih hrest hms.2⟩

theorem FitsElements.depth_le {specs : List JsonSpec} {args : List Arg} {k : Nat}
    (h : FitsElements e specs args)
    (hspecs : ∀ spec ∈ specs, ∀ arg, Fits e spec arg → depthOf arg ≤ k) : depthOfAll args ≤ k := by
  induction specs generalizing args with
  | nil =>
    cases h
    exact Nat.zero_le k
  | cons spec specs ih =>
    rw [List.forall_mem_cons] at hspecs
    cases h with | cons harg hrest =>
    exact Nat.max_le.mpr ⟨hspecs.1 _ harg, ih hrest hspecs.2⟩

/-- What stands behind the colons has a separator less, so its calls have one less as well. -/
theorem depth_members_le {args : List Arg}
    (hinner : ∀ t, separators t ≤ separators cs - 1 → ∀ arg,
      Fits e (.text (String.ofList t)) arg → depthOf arg ≤ separators t)
    (h : FitsMembers e ((items cs).map member) args) : depthOfAll args ≤ separators cs - 1 := by
  refine h.depth_le ?_
  rw [List.forall_mem_map]
  intro item hitem arg harg
  have hmem := separators_of_mem_items_le hitem
  have htail := separators_tail_dropWhile_le item
  have hlt : separators (item.dropWhile (· ≠ ':')).tail ≤ separators cs - 1 := by omega
  exact (hinner _ hlt arg harg).trans hlt

theorem hasTop_of_object (h : valueShape? (.text (String.ofList cs)) = some .object) :
    hasTop ':' (Text.trim cs) = true := by
  rw [valueShape?, String.toList_ofList] at h
  split at h
  · assumption
  · split at h <;> cases h

theorem hasTop_of_array (h : valueShape? (.text (String.ofList cs)) = some .array) :
    hasTop ',' (Text.trim cs) = true := by
  rw [valueShape?, String.toList_ofList] at h
  split at h
  · cases h
  · split at h
    · assumption
    · cases h

/-- What is written for a text has no more calls in one another than the text has colons and
commas: each call takes one of them away from the texts inside. -/
theorem depthOf_le_separators {arg : Arg} (h : Fits e (.text (String.ofList cs)) arg) :
    depthOf arg ≤ separators cs := by
  -- What stands inside a text is no part of its description, so the induction cannot follow the
  -- description; it goes by the number of separators.
  induction hn : separators cs using Nat.strong_induction_on generalizing cs arg with
  | _ n ih =>
    have htrim := separators_trim_le cs
    cases h with
    | expr _ hexpr => exact hexpr.depthOf_eq ▸ Nat.zero_le _
    | object hshape hmembers =>
      have hpos := separators_pos_of_hasTop rfl (hasTop_of_object hshape)
      rw [members, String.toList_ofList] at hmembers
      have hargs := depth_members_le (fun t ht arg harg => ih _ (by omega) harg rfl) hmembers
      rw [depthOf_call]
      omega
    | @array _ args hshape helements =>
      have hcomma := hasTop_of_array hshape
      have hpos := separators_pos_of_hasTop rfl hcomma
      have hargs : depthOfAll args ≤ n - 1 := by
        refine helements.depth_le ?_
        rw [elements, String.toList_ofList, ← items_trim, List.forall_mem_map]
        intro item hitem arg harg
        have hmem := separators_of_mem_items_lt hcomma hitem
        have hlt : separators item ≤ n - 1 := by omega
        exact (ih _ (by omega) harg rfl).trans hlt
      rw [depthOf_call]
      omega

theorem exists_depth_of_textExpr {x : JsonExpr} (h : textExpr e cs = .ok x) :
    ∃ arg, args? e (x.toSql e) = some [arg] ∧ depthOf arg ≤ separators cs := by
  obtain ⟨args, hread, hvalue⟩ := valueRead_textExpr cs h
  obtain ⟨arg, rfl, hfits⟩ := hvalue.mpr (.text _)
  have hgiven : given [arg] = [arg] := given_of_ne (by simpa using hfits.ne_nil)
  exact ⟨arg, hgiven ▸ hread.args, depthOf_le_separators hfits⟩

theorem exists_depth_of_compile {d : Dialect} {s : String} {shape : JsonShape} {sql : String}
    (h : compile d (.text s) shape = .ok sql) :
    ∃ args, args? d.engine sql = some args ∧ depthOfAll args ≤ 1 + separators s.toList := by
  have hcall (t : Lexer.Token) {args : List Arg} (h : depthOfAll args ≤ separators s.toList) :
      depthOfAll [[.token t, .group args]] ≤ 1 + separators s.toList := by
    rw [depthOfAll, depthOf_call, depthOfAll, Nat.max_zero]
    omega
  simp only [compile] at h
  split at h
  · cases h
  cases shape with
  | object =>
    obtain ⟨ps, hp, rfl⟩ := Outcome.exists_of_map_eq_ok h
    split
    · exact ⟨[], rfl, Nat.zero_le _⟩
    · obtain ⟨args, hread, hargs⟩ := object_read (memberRead_objectPairs (.text s) hp)
      have hdepth := depth_members_le (fun t _ arg => depthOf_le_separators)
        (hargs.mpr singleLists_member)
      exact ⟨_, hread.args, hcall _ (by omega)⟩
  | array =>
    obtain ⟨xs, hi, rfl⟩ := Outcome.exists_of_map_eq_ok h
    split
    · exact ⟨[], rfl, Nat.zero_le _⟩
    · obtain ⟨args, hread, hargs⟩ := array_read_of_items (.text s) hi
      refine ⟨_, hread.args, hcall _ ((hargs.mpr singleLists_item).depth_le ?_)⟩
      rw [elements, List.forall_mem_map]
      intro item hitem arg harg
      exact (depthOf_le_separators harg).trans (separators_of_mem_items_le hitem)

/-- To resolve a text takes only the values of texts that are shorter once they are trimmed, so
every description is resolved within one text more in one another than any of its texts has
colons and commas, to what it compiles to. In what is written for a text there are no more calls
in one another than its colons and commas where the text stands for a value, and one more where
it is a whole description. -/
theorem texts_resolve_from_shorter_texts :
    (∀ cs t, Needs cs t → (Text.trim t).length < (Text.trim cs).length) ∧
    (∀ e value cs, (∀ t, Needs cs t → value t = known (textExpr e t)) →
      textFrom e value cs = known (textExpr e cs)) ∧
    (∀ d spec shape n, mostSeparators spec < n →
      compileWithin n d spec shape = known (compile d spec shape)) ∧
    (∀ e cs x, textExpr e cs = .ok x →
      ∃ arg, args? e (x.toSql e) = some [arg] ∧ depthOf arg ≤ separators cs) ∧
    ∀ d s shape sql, compile d (.text s) shape = .ok sql →
      ∃ args, args? d.engine sql = some args ∧ depthOfAll args ≤ 1 + separators s.toList :=
  ⟨fun _ _ => Needs.shorter, fun _ _ _ => textFrom_eq, fun d _ shape _ => compileWithin_eq d shape,
    fun _ _ _ => exists_depth_of_textExpr, fun _ _ _ _ => exists_depth_of_compile⟩

/-- Separators with nothing between them, and an object in an object. -/
theorem scattered_separators_resolve :
    Needs "a:b:c".toList "b:c".toList ∧
    (Text.trim "b:c".toList).length < (Text.trim "a:b:c".toList).length ∧
    textFrom .mysql (fun t => if (Text.trim t).length < 5 then known (textExpr .mysql t)
      else ExceptT.mk none) "a:b:c".toList = known (textExpr .mysql "a:b:c".toList) ∧
    (∃ x, textExpr .mysql "a:b:c".toList = .ok x ∧
      x.toSql .mysql = "json_object('a', json_object('b', \x60c\x60))" ∧
      ∃ arg, args? .mysql (x.toSql .mysql) = some [arg] ∧ depthOf arg ≤ 2) ∧
    mostSeparators (.text ",, a ,,b:c,,") < 8 ∧
    ∃ sql, compile .mysql (.text ",, a ,,b:c,,") .array = .ok sql ∧
      sql = "json_array(\x60a\x60, json_object('b', \x60c\x60))" ∧
      compileWithin 8 .mysql (.text ",, a ,,b:c,,") .array = known (.ok sql) ∧
      ∃ args, args? .mysql sql = some args ∧ depthOfAll args ≤ 8 := by
  obtain ⟨hshorter, henough, hwithin, hvalue, hwhole⟩ := texts_resolve_from_shorter_texts
  have hneeds : Needs "a:b:c".toList "b:c".toList :=
    @Needs.value _ "a:b:c".toList ['a'] _ (by decide) (by decide) rfl
  have hsql : (textExpr .mysql "a:b:c".toList).toOption.map (JsonExpr.toSql .mysql) =
      some "json_object('a', json_object('b', \x60c\x60))" := by decide +kernel
  obtain ⟨x, hx, hsql⟩ := Option.map_eq_some_iff.mp hsql
  have hx := Outcome.eq_ok_of_toOption hx
  have hmost : mostSeparators (.text ",, a ,,b:c,,") < 8 := by decide
  have hcompile : compile .mysql (.text ",, a ,,b:c,,") .array =
      .ok "json_array(\x60a\x60, json_object('b', \x60c\x60))" :=
    Outcome.eq_ok_of_toOption (by decide +kernel)
  refine ⟨hneeds, hshorter _ _ hneeds, henough _ _ _ fun t ht => ?_,
    ⟨x, hx, hsql, hvalue _ _ _ hx⟩, hmost, _, hcompile, rfl, ?_, hwhole _ _ _ _ hcompile⟩
  · exact if_pos (hshorter _ _ ht)
  · rw [hwithin _ _ _ _ hmost, hcompile]

end JsonSpec

end SqlBuilder
