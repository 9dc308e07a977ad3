import SqlBuilder.JsonSpec.Compile
import SqlBuilder.Proofs.Outcome
import SqlBuilder.Proofs.Text

/-!
# Projections written with separators

A list of items written as one text with commas between them, and an object written with a
colon in each of its items, compile as the list and the mapping that they spell.
-/
namespace SqlBuilder.JsonSpec

variable {e : Engine}

/-- A text that is one item of a list: it shows something, closes all that it opens, and has no
comma at its top level. -/
structure OneItem (s : String) : Prop where
  shown : Text.blank s = false
  returns : Text.Returns ',' .start s.toList

instance (s : String) : Decidable (OneItem s) :=
  decidable_of_iff (Text.blank s = false ∧ Text.Returns ',' .start s.toList)
    ⟨fun h => ⟨h.1, h.2⟩, fun h => ⟨h.1, h.2⟩⟩

theorem items_joined {gap : List Char} (hgap : Text.allBlank gap = true)
    {texts : List (List Char)}
    (h : ∀ t ∈ texts, Text.allBlank t = false ∧ Text.Returns ',' .start t) :
    items ((',' :: gap).intercalate texts) = texts.map Text.trim := by
  by_cases hne : texts = []
  · rw [hne]
    rfl
  · rw [items, Text.splitTop_joined hgap hne fun t ht => (h t ht).2, List.filter_eq_self]
    intro item hitem
    obtain ⟨t, ht, rfl⟩ := List.mem_map.mp hitem
    rw [decide_eq_true_eq, Ne, Text.trim_eq_nil, (h t ht).1]
    exact Bool.false_ne_true

theorem textExpr_congr {a b : List Char} (h : Text.trim a = Text.trim b) :
    textExpr e a = textExpr e b := by
  rw [textExpr, textExpr, h]

theorem key_congr {a b : List Char} (h : Text.trim a = Text.trim b) : key a = key b := by
  rw [key, key, h]

theorem splitPair_first_colon {name : List Char} (hcolon : ':' ∉ name) (value : List Char) :
    splitPair (name ++ ':' :: value) =
      if Text.allBlank name || Text.allBlank value then
        .error (.ambiguousJson (.unpaired (String.ofList (name ++ ':' :: value))))
      else .ok (name, value) := by
  have hbefore : ∀ c ∈ name, decide (c ≠ ':') = true := by
    intro c hc
    rw [decide_eq_true_eq]
    rintro rfl
    exact hcolon hc
  have htake : (name ++ ':' :: value).takeWhile (· ≠ ':') = name := by
    rw [List.takeWhile_append_of_pos hbefore, List.takeWhile_cons_of_neg (by simp),
      List.append_nil]
  have hdrop : (name ++ ':' :: value).dropWhile (· ≠ ':') = ':' :: value := by
    rw [List.dropWhile_append_of_pos hbefore, List.dropWhile_cons_of_neg (by simp)]
  rw [splitPair, htake, hdrop]

theorem splitPair_append {name value : List Char} (hcolon : ':' ∉ name)
    (hname : Text.allBlank name = false) (hvalue : Text.allBlank value = false) :
    splitPair (name ++ ':' :: value) = .ok (name, value) := by
  rw [splitPair_first_colon hcolon, hname, hvalue]
  rfl

theorem itemPair_trim {name value : List Char} (hcolon : ':' ∉ name)
    (hname : Text.allBlank name = false) (hvalue : Text.allBlank value = false) :
    itemPair e (Text.trim (name ++ ':' :: value)) = do
      let name ← key name
      let value ← textExpr e value
      return (name, value) := by
  have hcolon' : ':' ∉ Text.trimStart name := fun h =>
    hcolon ((List.dropWhile_sublist _).subset h)
  have hname' : Text.allBlank (Text.trimStart name) = false := by
    rw [← Bool.not_eq_true, ← Text.trim_eq_nil, Text.trim_trimStart, Text.trim_eq_nil, hname]
    exact Bool.false_ne_true
  have hvalue' : Text.allBlank (Text.trimEnd value) = false := by
    rw [← Bool.not_eq_true, ← Text.trim_eq_nil, Text.trim_trimEnd, Text.trim_eq_nil, hvalue]
    exact Bool.false_ne_true
  have hpair := splitPair_append hcolon' hname' hvalue'
  rw [Text.trim_append_cons (by decide), itemPair]
  split
  · rename_i err herr
    rw [hpair] at herr
    cases herr
  · rename_i name' value' hsplit
    rw [hpair] at hsplit
    cases hsplit
    rw [key_congr (Text.trim_trimStart name), textExpr_congr (Text.trim_trimEnd value)]

theorem mapPairs_texts {pairs : List (String × String)}
    (h : ∀ p ∈ pairs, OneItem p.1 ∧ ':' ∉ p.1.toList ∧ OneItem p.2) :
    (pairs.map fun p => Text.trim (p.1.toList ++ ':' :: p.2.toList)).mapM (itemPair e) =
      mapPairs e (pairs.map fun p => (p.1, .text p.2)) := by
  induction pairs with
  | nil => rfl
  | cons p pairs ih =>
    rw [List.forall_mem_cons] at h
    obtain ⟨⟨hname, hcolon, hvalue⟩, hpairs⟩ := h
    rw [List.map_cons, List.map_cons, List.mapM_cons, ih hpairs, mapPairs, valueExpr,
      itemPair_trim hcolon hname.shown hvalue.shown]
    cases key p.1.toList with
    | error err => rfl
    | ok name => cases textExpr e p.2.toList <;> rfl

theorem valueExprs_texts (texts : List String) :
    (texts.map fun t => Text.trim t.toList).mapM (textExpr e) =
      valueExprs e (texts.map .text) := by
  induction texts with
  | nil => rfl
  | cons t texts ih =>
    rw [List.map_cons, List.map_cons, List.mapM_cons, ih, valueExprs, valueExpr,
      textExpr_congr (Text.trim_trim t.toList)]

theorem OneItem.pair {name value : String} (hname : OneItem name) (hvalue : OneItem value) :
    Text.Returns ',' .start (name.toList ++ ':' :: value.toList) := by
  have hcolon : Text.Returns ',' .start [':'] := ⟨by simp [Text.Uncut], rfl⟩
  exact hname.returns.append (hcolon.append hvalue.returns)

theorem items_pairs {gap : String} (hgap : Text.blank gap = true) {pairs : List (String × String)}
    (h : ∀ p ∈ pairs, OneItem p.1 ∧ ':' ∉ p.1.toList ∧ OneItem p.2) :
    items (("," ++ gap).intercalate (pairs.map fun p => p.1 ++ ":" ++ p.2)).toList =
      pairs.map fun p => Text.trim (p.1.toList ++ ':' :: p.2.toList) := by
  have hsep : ("," ++ gap).toList = ',' :: gap.toList := by simp
  have htexts : (pairs.map fun p => p.1 ++ ":" ++ p.2).map String.toList =
      pairs.map fun p => p.1.toList ++ ':' :: p.2.toList := by simp
  rw [String.toList_intercalate, hsep, htexts, items_joined hgap]
  · rw [List.map_map]
    rfl
  · intro t ht
    obtain ⟨p, hp, rfl⟩ := List.mem_map.mp ht
    obtain ⟨hname, -, hvalue⟩ := h p hp
    have hcolon : Text.isBlank ':' = false := by decide
    exact ⟨by simp [Text.allBlank, hcolon], hname.pair hvalue⟩

theorem items_texts {gap : String} (hgap : Text.blank gap = true) {texts : List String}
    (h : ∀ t ∈ texts, OneItem t) :
    items (("," ++ gap).intercalate texts).toList = texts.map fun t => Text.trim t.toList := by
  have hsep : ("," ++ gap).toList = ',' :: gap.toList := by simp
  rw [String.toList_intercalate, hsep, items_joined hgap]
  · rw [List.map_map]
    rfl
  · intro t ht
    obtain ⟨s, hs, rfl⟩ := List.mem_map.mp ht
    exact ⟨(h s hs).shown, (h s hs).returns⟩

/-- A projection written as one text compiles as the structure that it spells, to the same call
or the same error: a text of pairs with commas between them as the mapping of these pairs, and a
text of items as their list. What is written for a value may itself spell a list or an object. -/
theorem texts_compile_as_structures (d : Dialect) {gap : String} (hgap : Text.blank gap = true) :
    (∀ pairs : List (String × String),
      (∀ p ∈ pairs, OneItem p.1 ∧ ':' ∉ p.1.toList ∧ OneItem p.2) →
      compile d (.text (("," ++ gap).intercalate (pairs.map fun p => p.1 ++ ":" ++ p.2))) .object =
        compile d (.map (pairs.map fun p => (p.1, .text p.2))) .object) ∧
    ∀ texts : List String, (∀ t ∈ texts, OneItem t) →
      compile d (.text (("," ++ gap).intercalate texts)) .array =
        compile d (.list (texts.map .text)) .array := by
  constructor
  · intro pairs h
    have hpairs : objectPairs d.engine
        (.text (("," ++ gap).intercalate (pairs.map fun p => p.1 ++ ":" ++ p.2))) =
        objectPairs d.engine (.map (pairs.map fun p => (p.1, .text p.2))) := by
      rw [objectPairs, objectPairs, items_pairs hgap h, mapPairs_texts h]
    rw [compile, compile, hpairs]
  · intro texts h
    have helements : arrayItems d.engine (.text (("," ++ gap).intercalate texts)) =
        arrayItems d.engine (.list (texts.map .text)) := by
      rw [arrayItems, arrayItems, items_texts hgap h, valueExprs_texts]
    rw [compile, compile, helements]

def ownedPost : List (String × String) :=
  [("id", "p.id"), ("'a, b'", " title "), ("owner", "id: o.id")]

theorem ownedPost_text_compiles :
    (∀ p ∈ ownedPost, OneItem p.1 ∧ ':' ∉ p.1.toList ∧ OneItem p.2) ∧
    compile .mysql (.text "id:p.id, 'a, b': title , owner:id: o.id") .object =
      .ok ("json_object('id', \x60p\x60.\x60id\x60, '\\'a, b\\'', \x60title\x60, " ++
        "'owner', json_object('id', \x60o\x60.\x60id\x60))") := by
  have hpairs : ∀ p ∈ ownedPost, OneItem p.1 ∧ ':' ∉ p.1.toList ∧ OneItem p.2 := by
    decide +kernel
  have htext : (("," ++ " ").intercalate (ownedPost.map fun p => p.1 ++ ":" ++ p.2)) =
      "id:p.id, 'a, b': title , owner:id: o.id" := by decide +kernel
  refine ⟨hpairs, ?_⟩
  rw [← htext, (texts_compile_as_structures .mysql (by decide)).1 ownedPost hpairs]
  exact Outcome.eq_ok_of_toOption (by decide +kernel)

end SqlBuilder.JsonSpec
