import SqlBuilder.Proofs.JsonSpec.Reader

/-!
# Arguments of JSON constructors

An object takes a quoted key and a value for each member of its description, an array one value
for each element, at every level. The one exception is a list among the literals: it is spliced
into the arguments around it, so that it takes the place of one value only when it has one item.
-/
namespace SqlBuilder.JsonSpec

open Arguments
open Lexer (Token)
open List (Forall₂)
open Payload (Rawless)

variable {e : Engine} {spec : JsonSpec} {arg : Arg} {args : List Arg}

/-- What an item of an object's text says: a name up to the first colon, and a value. -/
def member (item : List Char) : List Char × JsonSpec :=
  (item.takeWhile (· ≠ ':'), .text (String.ofList (item.dropWhile (· ≠ ':')).tail))

mutual

def members : JsonSpec → List (List Char × JsonSpec)
  | .text s => (items s.toList).map member
  | .list specs => membersOfAll specs
  | .map pairs => pairs.map fun p => (p.1.toList, p.2)
  | .literal _ => []

def membersOfAll : List JsonSpec → List (List Char × JsonSpec)
  | [] => []
  | spec :: specs => members spec ++ membersOfAll specs

end

def elements : JsonSpec → List JsonSpec
  | .text s => (items s.toList).map fun item => .text (String.ofList item)
  | .list specs => specs
  | .map _ => []
  | .literal (.list values) => values.map .literal
  | .literal v => [.literal v]

/-- The constructor that a description stands for inside another one, unless it is an
expression. -/
def valueShape? : JsonSpec → Option JsonShape
  | .text s =>
    if hasTop ':' (Text.trim s.toList) then some .object
    else if hasTop ',' (Text.trim s.toList) then some .array
    else none
  | .list _ => some .array
  | .map _ => some .object
  | .literal _ => none

mutual

/-- The argument is one value, and is what the description stands for at every level. -/
inductive Fits (e : Engine) : JsonSpec → Arg → Prop where
  | expr {spec : JsonSpec} {arg : Arg} : spec.valueShape? = none → IsExpr arg → Fits e spec arg
  | object {spec : JsonSpec} {args : List Arg} : spec.valueShape? = some .object →
      FitsMembers e spec.members args →
      Fits e spec [.token (.word e.objectFunction.toList), .group args]
  | array {spec : JsonSpec} {args : List Arg} : spec.valueShape? = some .array →
      FitsElements e spec.elements args →
      Fits e spec [.token (.word e.arrayFunction.toList), .group args]

/-- The arguments are a quoted key and a value for each member. -/
inductive FitsMembers (e : Engine) : List (List Char × JsonSpec) → List Arg → Prop where
  | nil : FitsMembers e [] []
  | cons {name : List Char} {spec : JsonSpec} {members : List (List Char × JsonSpec)} {arg : Arg}
      {args : List Arg} : Fits e spec arg → FitsMembers e members args →
      FitsMembers e ((name, spec) :: members)
        ([.token (.literal (Text.trim name))] :: arg :: args)

/-- The arguments are a value for each element. -/
inductive FitsElements (e : Engine) : List JsonSpec → List Arg → Prop where
  | nil : FitsElements e [] []
  | cons {spec : JsonSpec} {specs : List JsonSpec} {arg : Arg} {args : List Arg} :
      Fits e spec arg → FitsElements e specs args → FitsElements e (spec :: specs) (arg :: args)

end

/-- The arguments of a constructor are what the description says. -/
def FitsCall (e : Engine) : JsonShape → JsonSpec → List Arg → Prop
  | .object, spec, args => FitsMembers e spec.members args
  | .array, spec, args => FitsElements e spec.elements args

/-- Every list among the literals has one item. -/
inductive SingleLists : JsonSpec → Prop where
  | text (s : String) : SingleLists (.text s)
  | list {specs : List JsonSpec} : (∀ x ∈ specs, SingleLists x) → SingleLists (.list specs)
  | map {pairs : List (String × JsonSpec)} : (∀ p ∈ pairs, SingleLists p.2) →
      SingleLists (.map pairs)
  | literal {v : Value} : (∀ values, v = .list values → values.length = 1) →
      SingleLists (.literal v)

/-- Every list among the literals that stand for a value in a constructor has one item. -/
def SinglesInside : JsonShape → JsonSpec → Prop
  | .object, spec => ∀ m ∈ spec.members, SingleLists m.2
  | .array, spec => ∀ x ∈ spec.elements, SingleLists x

theorem fits_object (h : spec.valueShape? = some .object) :
    Fits e spec [.token (.word e.objectFunction.toList), .group args] ↔
      FitsMembers e spec.members args := by
  refine ⟨fun hfits => ?_, .object h⟩
  generalize hcall : [Node.token (.word e.objectFunction.toList), .group args] = arg at hfits
  cases hfits with
  | object _ hmembers =>
    cases hcall
    exact hmembers
  | expr hshape _ | array hshape _ =>
    rw [h] at hshape
    cases hshape

theorem fits_array (h : spec.valueShape? = some .array) :
    Fits e spec [.token (.word e.arrayFunction.toList), .group args] ↔
      FitsElements e spec.elements args := by
  refine ⟨fun hfits => ?_, .array h⟩
  generalize hcall : [Node.token (.word e.arrayFunction.toList), .group args] = arg at hfits
  cases hfits with
  | array _ helements =>
    cases hcall
    exact helements
  | expr hshape _ | object hshape _ =>
    rw [h] at hshape
    cases hshape

theorem exists_fitting : (∃ a, [arg] = [a] ∧ Fits e spec a) ↔ Fits e spec arg := by simp

theorem Fits.ne_nil (h : Fits e spec arg) : arg ≠ [] := by
  cases h with
  | expr _ hexpr => exact hexpr.1
  | object | array => exact List.cons_ne_nil _ _

theorem FitsMembers.length {ms : List (List Char × JsonSpec)} (h : FitsMembers e ms args) :
    args.length = 2 * ms.length := by
  induction ms generalizing args with
  | nil =>
    cases h
    rfl
  | cons m ms ih =>
    cases h with | cons _ hrest =>
    rw [List.length_cons, List.length_cons, List.length_cons, ih hrest]
    omega

theorem FitsElements.length {specs : List JsonSpec} (h : FitsElements e specs args) :
    args.length = specs.length := by
  induction specs generalizing args with
  | nil =>
    cases h
    rfl
  | cons spec specs ih =>
    cases h with | cons _ hrest =>
    rw [List.length_cons, List.length_cons, ih hrest]

/-- The expression is read as arguments that are one fitting value just if all lists among the
literals have one item. -/
def ValueRead (e : Engine) (spec : JsonSpec) (x : JsonExpr) : Prop :=
  ∃ args, ReadsAs e (x.toSql e).toList args ∧
    ((∃ arg, args = [arg] ∧ Fits e spec arg) ↔ SingleLists spec)

def MemberRead (e : Engine) (m : List Char × JsonSpec) (p : String × JsonExpr) : Prop :=
  p.1 = String.ofList (Text.trim m.1) ∧ ValueRead e m.2 p.2

theorem exists_singleton_of_length {as rest : List Arg} {n : Nat} (hne : as ≠ [])
    (hrest : n ≤ rest.length) (hlength : (as ++ rest).length = n + 1) : ∃ a, as = [a] := by
  have hpos := List.length_pos_iff.mpr hne
  rw [List.length_append] at hlength
  exact List.length_eq_one_iff.mp (by omega)

theorem readsAs_key {name : List Char} {key : String}
    (h : key = String.ofList (Text.trim name)) :
    ReadsAs e (e.quoteText key).toList [[.token (.literal (Text.trim name))]] := by
  have hplain := (oneArg_quoteText e key).plain
  have hread := readsAs_plain (oneArg_quoteText e key).closed hplain
  rw [Lexer.tokens_quoteText, h, String.toList_ofList] at hread
  rw [h]
  exact hread

theorem readsAs_pairs {ms : List (List Char × JsonSpec)} {ps : List (String × JsonExpr)}
    (h : Forall₂ (MemberRead e) ms ps) :
    ∃ argss : List (List Arg), Forall₂ (fun t as => ReadsAs e t.toList as) (JsonExpr.pairArgs e ps)
        argss ∧ argss.flatten ≠ [[]] ∧ 2 * ms.length ≤ argss.flatten.length ∧
      (FitsMembers e ms argss.flatten ↔ ∀ m ∈ ms, SingleLists m.2) := by
  induction h with
  | nil => exact ⟨[], .nil, by simp, le_rfl, by simp, fun _ => .nil⟩
  | @cons m p ms ps hm _ ih =>
    obtain ⟨argss, hread, -, hlength, hfits⟩ := ih
    obtain ⟨hkey, as, has, hvalue⟩ := hm
    have hpos := List.length_pos_iff.mpr has.nonempty
    refine ⟨[[.token (.literal (Text.trim m.1))]] :: as :: argss,
      .cons (readsAs_key hkey) (.cons has hread), by simp, ?_, ?_⟩
    · simp only [List.flatten_cons, List.length_append, List.length_cons, List.length_nil]
      omega
    rw [List.forall_mem_cons, ← hvalue, ← hfits, List.flatten_cons, List.flatten_cons,
      List.singleton_append]
    constructor
    · -- The members behind take up at least their own arguments, which leaves one for this value.
      intro h
      have hlength' := h.length
      rw [List.length_cons, List.length_cons] at hlength'
      obtain ⟨a, rfl⟩ := exists_singleton_of_length has.nonempty hlength (by omega)
      cases h with | cons ha hrest => exact ⟨⟨a, rfl, ha⟩, hrest⟩
    · rintro ⟨⟨a, rfl, ha⟩, hrest⟩
      exact .cons ha hrest

theorem readsAs_items {specs : List JsonSpec} {xs : List JsonExpr}
    (h : Forall₂ (ValueRead e) specs xs) :
    ∃ argss : List (List Arg), Forall₂ (fun t as => ReadsAs e t.toList as) (JsonExpr.itemArgs e xs)
        argss ∧ specs.length ≤ argss.flatten.length ∧
      (FitsElements e specs argss.flatten ↔ ∀ x ∈ specs, SingleLists x) := by
  induction h with
  | nil => exact ⟨[], .nil, le_rfl, by simp, fun _ => .nil⟩
  | @cons spec x specs xs hvalue _ ih =>
    obtain ⟨argss, hread, hlength, hfits⟩ := ih
    obtain ⟨as, has, hvalue⟩ := hvalue
    have hpos := List.length_pos_iff.mpr has.nonempty
    refine ⟨as :: argss, .cons has hread, ?_, ?_⟩
    · simp only [List.flatten_cons, List.length_append, List.length_cons]
      omega
    rw [List.forall_mem_cons, ← hvalue, ← hfits, List.flatten_cons]
    constructor
    · intro h
      obtain ⟨a, rfl⟩ := exists_singleton_of_length has.nonempty hlength h.length
      cases h with | cons ha hrest => exact ⟨⟨a, rfl, ha⟩, hrest⟩
    · rintro ⟨⟨a, rfl, ha⟩, hrest⟩
      exact .cons ha hrest

/-- An object is read as one call. Its arguments fit just if all lists among the values have one
item: a longer list makes them too many. -/
theorem object_read {ms : List (List Char × JsonSpec)} {ps : List (String × JsonExpr)}
    (h : Forall₂ (MemberRead e) ms ps) :
    ∃ args, ReadsAs e ((JsonExpr.object ps).toSql e).toList
        [[.token (.word e.objectFunction.toList), .group args]] ∧
      (FitsMembers e ms args ↔ ∀ m ∈ ms, SingleLists m.2) := by
  obtain ⟨argss, hread, hne, -, hfits⟩ := readsAs_pairs h
  have hcall : ReadsAs e (JsonExpr.call e.objectFunction (JsonExpr.pairArgs e ps)).toList
      [[.token (.word e.objectFunction.toList), .group (given argss.flatten)]] :=
    readsAs_call (by cases e <;> decide) (by cases e <;> decide) hread
  rw [given_of_ne hne] at hcall
  exact ⟨_, hcall, hfits⟩

theorem array_read {specs : List JsonSpec} {xs : List JsonExpr}
    (h : Forall₂ (ValueRead e) specs xs) :
    ∃ args, ReadsAs e ((JsonExpr.array xs).toSql e).toList
        [[.token (.word e.arrayFunction.toList), .group args]] ∧
      (FitsElements e specs args ↔ ∀ x ∈ specs, SingleLists x) := by
  obtain ⟨argss, hread, hlength, hfits⟩ := readsAs_items h
  have hcall : ReadsAs e (JsonExpr.call e.arrayFunction (JsonExpr.itemArgs e xs)).toList
      [[.token (.word e.arrayFunction.toList), .group (given argss.flatten)]] :=
    readsAs_call (by cases e <;> decide) (by cases e <;> decide) hread
  refine ⟨_, hcall, ?_⟩
  rw [← hfits]
  by_cases hnil : argss.flatten = [[]]
  · -- An empty list is no value, and alone in parentheses not even an argument.
    rw [hnil]
    refine iff_of_false (fun hnone => ?_) fun hempty => ?_
    · have hspecs : specs = [] := List.length_eq_zero_iff.mp hnone.length.symm
      subst hspecs
      cases h
      cases hread
      cases hnil
    · cases hempty with | cons ha _ => exact ha.ne_nil rfl
  · rw [given_of_ne hnil]

theorem splitPair_member {item name value : List Char} (h : splitPair item = .ok (name, value)) :
    member item = (name, .text (String.ofList value)) := by
  simp only [splitPair] at h
  split at h
  · cases h
  · rename_i c cs hdrop
    split at h
    · cases h
    · cases h
      rw [member, hdrop]
      rfl

theorem items_trim (cs : List Char) : items (Text.trim cs) = items cs := by
  rw [items, items, Text.splitTop_trim]

theorem key_eq_ok {name : List Char} {text : String} (h : key name = .ok text) :
    text = String.ofList (Text.trim name) := by
  simp only [key] at h
  split at h
  · cases h
  · cases h
    rfl

theorem singleLists_member {ms : List (List Char)} : ∀ m ∈ ms.map member, SingleLists m.2 := by
  intro m hm
  obtain ⟨item, -, rfl⟩ := List.mem_map.mp hm
  exact .text _

theorem singleLists_item {texts : List (List Char)} :
    ∀ x ∈ texts.map fun item => JsonSpec.text (String.ofList item), SingleLists x := by
  intro x hx
  obtain ⟨item, -, rfl⟩ := List.mem_map.mp hx
  exact .text _

mutual

theorem valueRead_textExpr (cs : List Char) {x : JsonExpr} (h : textExpr e cs = .ok x) :
    ValueRead e (.text (String.ofList cs)) x := by
  rw [textExpr] at h
  split at h
  · rename_i hcolon
    obtain ⟨pairs, hp, rfl⟩ := Outcome.exists_of_map_eq_ok h
    have hmembers : Forall₂ (MemberRead e) ((items (Text.trim cs)).map member) pairs := by
      rw [List.forall₂_map_left_iff]
      refine (Outcome.forall₂_of_attach_mapM_eq_ok hp).imp fun item p ⟨hmem, hitem⟩ => ?_
      have := length_of_mem_items_le hmem
      have := Text.length_trim_le cs
      exact memberRead_itemPair item hitem
    have hshape : valueShape? (.text (String.ofList cs)) = some .object := by
      rw [valueShape?, String.toList_ofList, if_pos hcolon]
    obtain ⟨args, hread, hfits⟩ := object_read hmembers
    refine ⟨_, hread, iff_of_true ⟨_, rfl, .object hshape ?_⟩ (.text _)⟩
    rw [members, String.toList_ofList, ← items_trim]
    exact hfits.mpr singleLists_member
  split at h
  · rename_i hcolon hcomma
    obtain ⟨xs, hi, rfl⟩ := Outcome.exists_of_map_eq_ok h
    have helements : Forall₂ (ValueRead e)
        ((items (Text.trim cs)).map fun item => .text (String.ofList item)) xs := by
      rw [List.forall₂_map_left_iff]
      refine (Outcome.forall₂_of_attach_mapM_eq_ok hi).imp fun item x ⟨hmem, hitem⟩ => ?_
      have := length_of_mem_items hmem
      have := Text.length_trim_le cs
      have : 1 < (Text.splitTop ',' (Text.trim cs)).length := of_decide_eq_true hcomma
      exact valueRead_textExpr item hitem
    have hshape : valueShape? (.text (String.ofList cs)) = some .array := by
      rw [valueShape?, String.toList_ofList, if_neg hcolon, if_pos hcomma]
    obtain ⟨args, hread, hfits⟩ := array_read helements
    refine ⟨_, hread, iff_of_true ⟨_, rfl, .array hshape ?_⟩ (.text _)⟩
    rw [elements, String.toList_ofList, ← items_trim]
    exact hfits.mpr singleLists_item
  split at h
  · cases h
  · rename_i hcolon hcomma _
    obtain ⟨text, ht, rfl⟩ := Outcome.exists_of_map_eq_ok h
    obtain ⟨arg, hexpr, hread⟩ := (oneArg_quoteIdent ht).readsAs
    have hshape : valueShape? (.text (String.ofList cs)) = none := by
      rw [valueShape?, String.toList_ofList, if_neg hcolon, if_neg hcomma]
    exact ⟨[arg], hread, iff_of_true ⟨arg, rfl, .expr hshape hexpr⟩ (.text _)⟩
termination_by 2 * cs.length + 1

theorem memberRead_itemPair (item : List Char) {p : String × JsonExpr}
    (h : itemPair e item = .ok p) : MemberRead e (member item) p := by
  rw [itemPair] at h
  split at h
  · cases h
  · rename_i hsplit
    obtain ⟨name, hname, h⟩ := Outcome.exists_of_bind_eq_ok h
    obtain ⟨x, hx, h⟩ := Outcome.exists_of_bind_eq_ok h
    cases h
    have := length_of_splitPair hsplit
    rw [splitPair_member hsplit]
    exact ⟨key_eq_ok hname, valueRead_textExpr _ hx⟩
termination_by 2 * item.length

end

/-- A list that stands for a value is one argument just if it has one item: an empty list is no
value, and a longer one is spliced in. -/
theorem valueRead_literal {v : Value} (hv : ∀ sql, v ≠ .raw sql) {x : JsonExpr}
    (h : literalExpr e v = .ok x) : ValueRead e (.literal v) x := by
  obtain ⟨text, ht, rfl⟩ := Outcome.exists_of_map_eq_ok h
  have hone (hone : OneArg e text.toList) (hlist : ∀ values, v ≠ .list values) :
      ValueRead e (.literal v) (.sql text) := by
    obtain ⟨arg, hexpr, hread⟩ := hone.readsAs
    have hsingle : SingleLists (.literal v) :=
      .literal fun values hvalues => absurd hvalues (hlist values)
    exact ⟨[arg], hread, iff_of_true ⟨arg, rfl, .expr rfl hexpr⟩ hsingle⟩
  have hscalar (hs : e.escapeScalar v = .ok text) := hone (oneArg_escapeScalar hs)
  cases v with
  | raw sql => exact absurd rfl (hv sql)
  | ident name => exact hone (oneArg_quoteIdent ht) (by simp)
  | list values =>
    obtain ⟨args, hitems, hread⟩ := readsAs_escapeList ht
    refine ⟨_, hread, ?_, ?_⟩
    · rintro ⟨arg, htaken, hfits⟩
      refine .literal fun values' hvalues => ?_
      cases hvalues
      rw [hitems.length_eq]
      cases args with
      | nil =>
        cases htaken
        exact absurd rfl hfits.ne_nil
      | cons a as =>
        rw [taken_of_ne_nil (List.cons_ne_nil a as)] at htaken
        rw [htaken]
        rfl
    · intro hsingle
      cases hsingle with | literal hlength =>
      have hone := hlength values rfl
      rw [hitems.length_eq] at hone
      obtain ⟨arg, rfl⟩ := List.length_eq_one_iff.mp hone
      cases hitems with | cons hexpr _ => exact ⟨arg, rfl, .expr rfl hexpr.1⟩
  | _ => exact hscalar ht (by simp)

theorem singleLists_list {specs : List JsonSpec} :
    SingleLists (.list specs) ↔ ∀ x ∈ specs, SingleLists x := by
  refine ⟨fun h => ?_, .list⟩
  cases h with | list hspecs => exact hspecs

theorem singleLists_map {pairs : List (String × JsonSpec)} :
    SingleLists (.map pairs) ↔ ∀ m ∈ members (.map pairs), SingleLists m.2 := by
  rw [members, List.forall_mem_map]
  refine ⟨fun h => ?_, .map⟩
  cases h with | map hpairs => exact hpairs

mutual

theorem valueRead_valueExpr {spec : JsonSpec} (hspec : Rawless spec) {x : JsonExpr}
    (h : valueExpr e spec = .ok x) : ValueRead e spec x := by
  cases hspec with
  | text s =>
    have hread := valueRead_textExpr s.toList h
    rwa [String.ofList_toList] at hread
  | @list specs hs =>
    obtain ⟨xs, hi, rfl⟩ := Outcome.exists_of_map_eq_ok h
    obtain ⟨args, hread, hfits⟩ := array_read (valueRead_valueExprs hs hi)
    refine ⟨_, hread, ?_⟩
    rw [exists_fitting, fits_array rfl, singleLists_list]
    exact hfits
  | @map pairs hs =>
    obtain ⟨ps, hp, rfl⟩ := Outcome.exists_of_map_eq_ok h
    obtain ⟨args, hread, hfits⟩ := object_read (memberRead_mapPairs hs hp)
    refine ⟨_, hread, ?_⟩
    rw [exists_fitting, fits_object rfl, singleLists_map]
    exact hfits
  | literal hv => exact valueRead_literal hv h

theorem valueRead_valueExprs {specs : List JsonSpec} (hspecs : ∀ x ∈ specs, Rawless x)
    {xs : List JsonExpr} (h : valueExprs e specs = .ok xs) : Forall₂ (ValueRead e) specs xs := by
  cases specs with
  | nil =>
    cases h
    exact .nil
  | cons spec specs =>
    rw [List.forall_mem_cons] at hspecs
    obtain ⟨x, hx, h⟩ := Outcome.exists_of_bind_eq_ok h
    obtain ⟨xs, hxs, h⟩ := Outcome.exists_of_bind_eq_ok h
    cases h
    exact .cons (valueRead_valueExpr hspecs.1 hx) (valueRead_valueExprs hspecs.2 hxs)

theorem memberRead_mapPairs {pairs : List (String × JsonSpec)} (hpairs : ∀ p ∈ pairs, Rawless p.2)
    {ps : List (String × JsonExpr)} (h : mapPairs e pairs = .ok ps) :
    Forall₂ (MemberRead e) (members (.map pairs)) ps := by
  cases pairs with
  | nil =>
    cases h
    exact .nil
  | cons p pairs =>
    rw [List.forall_mem_cons] at hpairs
    obtain ⟨name, hname, h⟩ := Outcome.exists_of_bind_eq_ok h
    obtain ⟨x, hx, h⟩ := Outcome.exists_of_bind_eq_ok h
    obtain ⟨ps, hps, h⟩ := Outcome.exists_of_bind_eq_ok h
    cases h
    exact .cons ⟨key_eq_ok hname, valueRead_valueExpr hpairs.1 hx⟩
      (memberRead_mapPairs hpairs.2 hps)

end

mutual

theorem memberRead_objectPairs {spec : JsonSpec} (hspec : Rawless spec)
    {ps : List (String × JsonExpr)} (h : objectPairs e spec = .ok ps) :
    Forall₂ (MemberRead e) spec.members ps := by
  cases hspec with
  | text s =>
    rw [members, List.forall₂_map_left_iff]
    exact (Outcome.forall₂_of_mapM_eq_ok h).imp fun item p => memberRead_itemPair item
  | list hs => exact memberRead_elementPairs hs h
  | map hs => exact memberRead_mapPairs hs h
  | literal hv => cases h

theorem memberRead_elementPairs {specs : List JsonSpec} (hspecs : ∀ x ∈ specs, Rawless x)
    {ps : List (String × JsonExpr)} (h : elementPairs e specs = .ok ps) :
    Forall₂ (MemberRead e) (membersOfAll specs) ps := by
  cases specs with
  | nil =>
    cases h
    exact .nil
  | cons spec specs =>
    rw [List.forall_mem_cons] at hspecs
    have hboth {ps : List (String × JsonExpr)} (hps : objectPairs e spec = .ok ps)
        {qs : List (String × JsonExpr)} (hqs : elementPairs e specs = .ok qs) :
        Forall₂ (MemberRead e) (membersOfAll (spec :: specs)) (ps ++ qs) :=
      List.rel_append (memberRead_objectPairs hspecs.1 hps) (memberRead_elementPairs hspecs.2 hqs)
    cases spec with
    | list items => cases h
    | literal v => cases h
    | text s | map mapped =>
      obtain ⟨ps, hps, h⟩ := Outcome.exists_of_bind_eq_ok h
      obtain ⟨qs, hqs, h⟩ := Outcome.exists_of_bind_eq_ok h
      cases h
      exact hboth hps hqs

end

theorem fitsElements_literals {values : List Value}
    (h : Forall₂ (fun v arg => IsExpr arg ∧ ∀ items, v ≠ .list items) values args) :
    FitsElements e (values.map .literal) args ∧ ∀ x ∈ values.map .literal, SingleLists x := by
  induction h with
  | nil => exact ⟨.nil, by simp⟩
  | cons hv _ ih =>
    obtain ⟨hexpr, hlist⟩ := hv
    rw [List.map_cons, List.forall_mem_cons]
    exact ⟨.cons (.expr rfl hexpr) ih.1, .literal fun items hitems => absurd hitems (hlist items),
      ih.2⟩

theorem array_read_of_items {spec : JsonSpec} (hspec : Rawless spec) {xs : List JsonExpr}
    (h : arrayItems e spec = .ok xs) :
    ∃ args, ReadsAs e ((JsonExpr.array xs).toSql e).toList
        [[.token (.word e.arrayFunction.toList), .group args]] ∧
      (FitsElements e spec.elements args ↔ ∀ x ∈ spec.elements, SingleLists x) := by
  cases hspec with
  | text s =>
    apply array_read
    rw [elements, List.forall₂_map_left_iff]
    exact (Outcome.forall₂_of_mapM_eq_ok h).imp fun item x => valueRead_textExpr item
  | list hs => exact array_read (valueRead_valueExprs hs h)
  | map hs => cases h
  | @literal v hv =>
    obtain ⟨x, hx, rfl⟩ := Outcome.exists_of_map_eq_ok h
    cases v with
    | list values =>
      obtain ⟨text, ht, rfl⟩ := Outcome.exists_of_map_eq_ok hx
      obtain ⟨args, hitems, hread⟩ := readsAs_escapeList ht
      obtain ⟨hfits, hsingle⟩ := fitsElements_literals (e := e) hitems
      have hne : args ≠ [[]] := by
        rintro rfl
        cases hitems with | cons hexpr _ => exact hexpr.1.1 rfl
      have hcall : ReadsAs e (JsonExpr.call e.arrayFunction [text]).toList
          [[.token (.word e.arrayFunction.toList), .group (given [taken args].flatten)]] :=
        readsAs_call (by cases e <;> decide) (by cases e <;> decide) (.cons hread .nil)
      rw [List.flatten_singleton, given_taken hne] at hcall
      exact ⟨args, hcall, iff_of_true hfits hsingle⟩
    | _ => exact array_read (.cons (valueRead_literal hv hx) .nil)

def constructor (e : Engine) : JsonShape → String
  | .object => e.objectFunction
  | .array => e.arrayFunction

/-- A description without raw text that compiles to some text compiles to one constructor call,
whatever texts it holds. The arguments are what it says at every level, a quoted key and one value
for each member of an object and one value for each element of an array, just if each list
that stands for a value among its literals has one item. -/
theorem arguments_fit_iff (d : Dialect) {spec : JsonSpec} (hspec : Rawless spec)
    {shape : JsonShape} {text : String} (h : compile d spec shape = .ok text) (hne : text ≠ "") :
    ∃ args, args? d.engine text =
        some [[.token (.word (constructor d.engine shape).toList), .group args]] ∧
      (FitsCall d.engine shape spec args ↔ SinglesInside shape spec) := by
  simp only [compile] at h
  split at h
  · cases h
  cases shape with
  | object =>
    obtain ⟨ps, hp, rfl⟩ := Outcome.exists_of_map_eq_ok h
    split at hne
    · exact absurd rfl hne
    · rename_i hsome
      rw [if_neg hsome]
      obtain ⟨args, hread, hfits⟩ := object_read (memberRead_objectPairs hspec hp)
      exact ⟨args, hread.args, hfits⟩
  | array =>
    obtain ⟨xs, hi, rfl⟩ := Outcome.exists_of_map_eq_ok h
    split at hne
    · exact absurd rfl hne
    · rename_i hsome
      rw [if_neg hsome]
      obtain ⟨args, hread, hfits⟩ := array_read_of_items hspec hi
      exact ⟨args, hread.args, hfits⟩

def post : JsonSpec :=
  .map [("owner", .text "id:o.id"), ("tags", .list [.text "t1", .literal (.text "a, (b")]),
    ("limit", .literal (.list [.int 5]))]

theorem post_arguments_fit :
    Rawless post ∧ ∃ text, compile .mysql post .object = .ok text ∧
      text = "json_object('owner', json_object('id', \x60o\x60.\x60id\x60), " ++
        "'tags', json_array(\x60t1\x60, 'a, (b'), 'limit', 5)" ∧
      ∃ args, args? .mysql text = some [[.token (.word "json_object".toList), .group args]] ∧
        args.length = 6 ∧ FitsCall .mysql .object post args := by
  have hspec : Rawless post := by
    have htags : ∀ x ∈ [.text "t1", .literal (.text "a, (b")], Rawless x := by
      rw [List.forall_mem_cons, List.forall_mem_singleton]
      exact ⟨.text _, .literal (by simp)⟩
    refine .map ?_
    simp only [List.forall_mem_cons, List.not_mem_nil, false_implies, implies_true, and_true]
    exact ⟨.text _, .list htags, .literal (by simp)⟩
  have hsingle : SinglesInside .object post := by
    have htags : ∀ x ∈ [.text "t1", .literal (.text "a, (b")], SingleLists x := by
      rw [List.forall_mem_cons, List.forall_mem_singleton]
      exact ⟨.text _, .literal (by simp)⟩
    simp only [SinglesInside, post, members, List.map_cons, List.map_nil, List.forall_mem_cons,
      List.not_mem_nil, false_implies, implies_true, and_true]
    exact ⟨.text _, .list htags, .literal (by simp)⟩
  have hcompile : compile .mysql post .object =
      .ok ("json_object('owner', json_object('id', \x60o\x60.\x60id\x60), " ++
        "'tags', json_array(\x60t1\x60, 'a, (b'), 'limit', 5)") :=
    Outcome.eq_ok_of_toOption (by decide +kernel)
  obtain ⟨args, hargs, hfits⟩ := arguments_fit_iff .mysql hspec hcompile (by decide)
  have hpost := hfits.mpr hsingle
  exact ⟨hspec, _, hcompile, rfl, args, hargs, FitsMembers.length hpost, hpost⟩

def taggedPost : JsonSpec := .map [("tags", .literal (.list [.int 1, .int 2]))]

def untaggedPost : JsonSpec := .list [.literal (.list []), .text "a"]

/-- Without raw text, an object may take three arguments for its one member, and an array may
take an argument with nothing in it. -/
theorem literal_lists_do_not_fit :
    (Rawless taggedPost ∧ taggedPost.members.length = 1 ∧
      compile .mysql taggedPost .object = .ok "json_object('tags', 1, 2)" ∧
      ∃ args, args? .mysql "json_object('tags', 1, 2)" =
          some [[.token (.word "json_object".toList), .group args]] ∧
        args.length = 3 ∧ ¬FitsCall .mysql .object taggedPost args) ∧
    Rawless untaggedPost ∧
      compile .postgres untaggedPost .array = .ok "json_build_array(, \"a\")" ∧
      ∃ args, args? .postgres "json_build_array(, \"a\")" =
          some [[.token (.word "json_build_array".toList), .group args]] ∧
        [] ∈ args ∧ ¬FitsCall .postgres .array untaggedPost args := by
  have htagged : Rawless taggedPost := by
    refine .map ?_
    rw [List.forall_mem_singleton]
    exact .literal (by simp)
  have huntagged : Rawless untaggedPost := by
    refine .list ?_
    rw [List.forall_mem_cons, List.forall_mem_singleton]
    exact ⟨.literal (by simp), .text _⟩
  constructor
  · refine ⟨htagged, rfl, Outcome.eq_ok_of_toOption (by decide +kernel),
      [[.token (.literal "tags".toList)], [.token (.word "1".toList)],
        [.token (.word "2".toList)]], by rfl, rfl, fun hfits => ?_⟩
    exact absurd (FitsMembers.length hfits) (by decide)
  · refine ⟨huntagged, Outcome.eq_ok_of_toOption (by decide +kernel),
      [[], [.token (.name "a".toList)]], by rfl, List.mem_cons_self, fun hfits => ?_⟩
    cases hfits with | cons hempty _ => exact hempty.ne_nil rfl

end SqlBuilder.JsonSpec
