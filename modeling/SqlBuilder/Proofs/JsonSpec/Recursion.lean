import SqlBuilder.Proofs.JsonSpec.Colons
import SqlBuilder.Proofs.Text.Pieces

/-!
# Projections inside texts

To resolve a text is to resolve the texts inside it, through the same functions that resolve a
description with that text in it. Every text inside has fewer colons and commas than the text
around it, so the recursion ends however these are arranged, and their number bounds how many
texts are resolved in one another.
-/
namespace SqlBuilder.JsonSpec

variable {e : Engine} {cs t item : List Char} {n : Nat}

def separators (cs : List Char) : Nat := cs.countP fun c => c = ':' || c = ','

theorem separators_append (a b : List Char) :
    separators (a ++ b) = separators a + separators b := List.countP_append

theorem separators_trim_le (cs : List Char) : separators (Text.trim cs) ≤ separators cs :=
  (Text.trim_sublist cs).countP_le

theorem separators_of_mem {sep : Char} (hsep : separators [sep] = 1) {p : List Char}
    {ps : List (List Char)} (h : p ∈ ps) :
    separators p + ps.length ≤ separators ([sep].intercalate ps) + 1 := by
  induction ps generalizing p with
  | nil => cases h
  | cons q ps ih =>
    cases ps with
    | nil =>
      rw [List.mem_singleton] at h
      rw [h, List.intercalate_singleton]
      exact Nat.le_refl _
    | cons q' ps =>
      rw [List.intercalate_cons_cons, separators_append, separators_append, hsep,
        List.length_cons]
      rcases List.mem_cons.mp h with rfl | h
      · have := ih (p := q') List.mem_cons_self
        omega
      · have := ih h
        omega

theorem separators_of_mem_splitTop {sep : Char} (hsep : separators [sep] = 1) {p : List Char}
    (h : p ∈ Text.splitTop sep cs) :
    separators p + (Text.splitTop sep cs).length ≤ separators cs + 1 := by
  have hjoin : [sep].intercalate (Text.splitTop sep cs) = cs :=
    Text.intercalate_splitFrom sep .start cs
  have hmem := separators_of_mem hsep h
  rwa [hjoin] at hmem

theorem separators_of_mem_items (h : item ∈ items cs) :
    separators item + (Text.splitTop ',' cs).length ≤ separators cs + 1 := by
  obtain ⟨p, hp, rfl⟩ := List.mem_map.mp (List.mem_filter.mp h).1
  have := separators_of_mem_splitTop rfl hp
  have := separators_trim_le p
  omega

theorem separators_of_mem_items_le (h : item ∈ items cs) : separators item ≤ separators cs := by
  have := separators_of_mem_items h
  have : 0 < (Text.splitTop ',' cs).length := Text.length_splitFrom_pos ',' .start cs
  omega

theorem separators_of_mem_items_lt (hcomma : hasTop ',' cs = true) (h : item ∈ items cs) :
    separators item < separators cs := by
  have := separators_of_mem_items h
  have : 1 < (Text.splitTop ',' cs).length := of_decide_eq_true hcomma
  omega

theorem separators_pos_of_hasTop {sep : Char} (hsep : separators [sep] = 1)
    (h : hasTop sep cs = true) : 0 < separators cs := by
  have hlength : 1 < (Text.splitTop sep cs).length := of_decide_eq_true h
  obtain ⟨p, hp⟩ := List.exists_mem_of_length_pos (Nat.zero_lt_of_lt hlength)
  have := separators_of_mem_splitTop hsep hp
  omega

theorem separators_of_splitPair {name value : List Char}
    (h : splitPair item = .ok (name, value)) : separators value < separators item := by
  obtain ⟨rfl, -⟩ := splitPair_eq_ok_iff.mp h
  have hcolon : separators (':' :: value) = separators value + 1 := List.countP_cons_of_pos rfl
  rw [separators_append, hcolon]
  omega

theorem separators_tail_dropWhile_le (item : List Char) :
    separators (item.dropWhile (· ≠ ':')).tail ≤ separators item - 1 := by
  induction item with
  | nil => exact Nat.le_refl _
  | cons c item ih =>
    by_cases hc : c = ':'
    · have hcolon : separators (c :: item) = separators item + 1 :=
        List.countP_cons_of_pos (by simp [hc])
      rw [List.dropWhile_cons_of_neg (by simp [hc]), List.tail_cons, hcolon]
      exact Nat.le_refl _
    · have hitem : separators item ≤ separators (c :: item) :=
        (List.sublist_cons_self c item).countP_le
      rw [List.dropWhile_cons_of_pos (by simp [hc])]
      omega

/-- The value of a text is put together from the values of these texts: where it is an object,
from what stands behind the first colon of each item, and where it is an array, from the items. -/
inductive Needs (cs : List Char) : List Char → Prop where
  | value {item name value : List Char} : hasTop ':' (Text.trim cs) = true →
      item ∈ items (Text.trim cs) → splitPair item = .ok (name, value) → Needs cs value
  | element {item : List Char} : hasTop ':' (Text.trim cs) = false →
      hasTop ',' (Text.trim cs) = true → item ∈ items (Text.trim cs) → Needs cs item

theorem Needs.shorter (h : Needs cs t) : (Text.trim t).length < (Text.trim cs).length := by
  have htrim := Text.length_trim_le t
  cases h with
  | value _ hitem hsplit =>
    have := length_of_mem_items_le hitem
    have := length_of_splitPair hsplit
    omega
  | element _ hcomma hitem =>
    have := length_of_mem_items hitem
    have : 1 < (Text.splitTop ',' (Text.trim cs)).length := of_decide_eq_true hcomma
    omega

theorem Needs.separators_lt (h : Needs cs t) : separators t < separators cs := by
  have htrim := separators_trim_le cs
  cases h with
  | value _ hitem hsplit =>
    have := separators_of_mem_items_le hitem
    have := separators_of_splitPair hsplit
    omega
  | element _ hcomma hitem =>
    have := separators_of_mem_items_lt hcomma hitem
    omega

/-- An outcome, unless something that it needs was not given. -/
abbrev Pending (α : Type) : Type := ExceptT SqlError Option α

def known {α : Type} (x : Outcome α) : Pending α := ExceptT.mk (some x)

section

variable (e : Engine) (value : List Char → Pending JsonExpr)

/-- What an item of an object's text stands for, when the values of texts are given. -/
def itemPairFrom (item : List Char) : Pending (String × JsonExpr) := do
  let (name, rest) ← known (splitPair item)
  let name ← known (key name)
  return (name, ← value rest)

mutual

/-- What a description stands for, when the values of texts are given. -/
def valueFrom : JsonSpec → Pending JsonExpr
  | .text s => value s.toList
  | .list specs => .array <$> valuesFrom specs
  | .map pairs => .object <$> mapPairsFrom pairs
  | .literal v => known (literalExpr e v)

def valuesFrom : List JsonSpec → Pending (List JsonExpr)
  | [] => pure []
  | spec :: specs => return (← valueFrom spec) :: (← valuesFrom specs)

def mapPairsFrom : List (String × JsonSpec) → Pending (List (String × JsonExpr))
  | [] => pure []
  | (name, spec) :: pairs => do
    let name ← known (key name.toList)
    return (name, ← valueFrom spec) :: (← mapPairsFrom pairs)

end

mutual

def objectPairsFrom : JsonSpec → Pending (List (String × JsonExpr))
  | .text s => (items s.toList).mapM (itemPairFrom value)
  | .list specs => elementPairsFrom specs
  | .map pairs => mapPairsFrom e value pairs
  | .literal v => known (.error (.ambiguousJson (.value v)))

def elementPairsFrom : List JsonSpec → Pending (List (String × JsonExpr))
  | [] => pure []
  | .list specs :: _ => known (.error (.ambiguousJson (.element (.list specs))))
  | .literal v :: _ => known (.error (.ambiguousJson (.element (.literal v))))
  | spec :: specs => return (← objectPairsFrom spec) ++ (← elementPairsFrom specs)

end

def arrayItemsFrom : JsonSpec → Pending (List JsonExpr)
  | .text s => (items s.toList).mapM value
  | .list specs => valuesFrom e value specs
  | .map _ => known (.error (.shape .mappingInArray))
  | .literal v => known ((literalExpr e v).map fun x => [x])

/-- A text with separators is resolved as a description that is the same text. -/
def textFrom (cs : List Char) : Pending JsonExpr :=
  let text := String.ofList (Text.trim cs)
  if hasTop ':' (Text.trim cs) then .object <$> objectPairsFrom e value (.text text)
  else if hasTop ',' (Text.trim cs) then .array <$> arrayItemsFrom e value (.text text)
  else if Text.trim cs = [] then known (.error unnamed)
  else known ((e.quoteIdent text).map .sql)

end

/-- The value of a text, as far as so many texts in one another give it. -/
def textWithin (e : Engine) : Nat → List Char → Pending JsonExpr
  | 0, _ => ExceptT.mk none
  | n + 1, cs => textFrom e (textWithin e n) cs

/-- The constructor call, as far as so many texts in one another give it. -/
def compileWithin (n : Nat) (d : Dialect) (spec : JsonSpec) (shape : JsonShape) :
    Pending String :=
  if !d.supportsJson then known (.error (unsupported d))
  else match shape with
    | .object => (fun pairs => if pairs.isEmpty then "" else (JsonExpr.object pairs).toSql d.engine)
        <$> objectPairsFrom d.engine (textWithin d.engine n) spec
    | .array => (fun xs => if xs.isEmpty then "" else (JsonExpr.array xs).toSql d.engine)
        <$> arrayItemsFrom d.engine (textWithin d.engine n) spec

theorem known_bind {α β : Type} (x : Outcome α) {f : α → Pending β} {g : α → Outcome β}
    (h : ∀ a, f a = known (g a)) : known x >>= f = known (x >>= g) := by
  cases x with
  | error err => rfl
  | ok a => exact h a

theorem known_map {α β : Type} (f : α → β) (x : Outcome α) : f <$> known x = known (x.map f) := by
  cases x <;> rfl

theorem known_mapM {α β : Type} {xs : List α} {f : α → Pending β} {g : α → Outcome β}
    (h : ∀ x ∈ xs, f x = known (g x)) : xs.mapM f = known (xs.mapM g) := by
  induction xs with
  | nil => rfl
  | cons x xs ih =>
    rw [List.forall_mem_cons] at h
    rw [List.mapM_cons, List.mapM_cons, h.1, ih h.2]
    exact known_bind _ fun b => known_bind _ fun bs => rfl

variable {value : List Char → Pending JsonExpr}

theorem itemPairFrom_eq
    (h : ∀ name t, splitPair item = .ok (name, t) → value t = known (textExpr e t)) :
    itemPairFrom value item = known (itemPair e item) := by
  rw [itemPairFrom, itemPair]
  split
  · rename_i err hsplit
    rw [hsplit]
    rfl
  · rename_i name t hsplit
    rw [hsplit]
    show (known (key name) >>= fun name => value t >>= fun x => pure (name, x)) = _
    rw [h name t hsplit]
    exact known_bind _ fun name => known_bind _ fun x => rfl

theorem textFrom_eq (h : ∀ t, Needs cs t → value t = known (textExpr e t)) :
    textFrom e value cs = known (textExpr e cs) := by
  rw [textFrom, textExpr, Outcome.attach_mapM, Outcome.attach_mapM]
  split
  · rename_i hcolon
    rw [objectPairsFrom, String.toList_ofList, ← known_map]
    congr 1
    exact known_mapM fun item hitem =>
      itemPairFrom_eq fun name t hsplit => h t (.value hcolon hitem hsplit)
  split
  · rename_i hcolon hcomma
    rw [arrayItemsFrom, String.toList_ofList, ← known_map]
    congr 1
    exact known_mapM fun item hitem =>
      h item (.element (Bool.eq_false_iff.mpr hcolon) hcomma hitem)
  split <;> rfl

/-- One text fewer in one another for every colon and comma. -/
theorem textWithin_eq (h : separators cs < n) : textWithin e n cs = known (textExpr e cs) := by
  induction n generalizing cs with
  | zero => exact absurd h (Nat.not_lt_zero _)
  | succ n ih =>
    exact textFrom_eq fun t ht => ih (Nat.lt_of_lt_of_le ht.separators_lt (Nat.le_of_lt_succ h))

mutual

/-- The most colons and commas that one text of a description has. -/
def mostSeparators : JsonSpec → Nat
  | .text s => separators s.toList
  | .list specs => mostOfAll specs
  | .map pairs => mostOfPairs pairs
  | .literal _ => 0

def mostOfAll : List JsonSpec → Nat
  | [] => 0
  | spec :: specs => max (mostSeparators spec) (mostOfAll specs)

def mostOfPairs : List (String × JsonSpec) → Nat
  | [] => 0
  | (_, spec) :: pairs => max (mostSeparators spec) (mostOfPairs pairs)

end

/-- The values of all texts with at most so many colons and commas are given. -/
def KnownUpTo (e : Engine) (value : List Char → Pending JsonExpr) (k : Nat) : Prop :=
  ∀ t, separators t ≤ k → value t = known (textExpr e t)

section

variable {k : Nat}

mutual

theorem valueFrom_eq (hvalue : KnownUpTo e value k) (spec : JsonSpec)
    (h : mostSeparators spec ≤ k) : valueFrom e value spec = known (valueExpr e spec) := by
  cases spec with
  | text s => exact hvalue s.toList h
  | list specs => rw [valueFrom, valuesFrom_eq hvalue specs h, known_map, valueExpr]
  | map pairs => rw [valueFrom, mapPairsFrom_eq hvalue pairs h, known_map, valueExpr]
  | literal v => rfl

theorem valuesFrom_eq (hvalue : KnownUpTo e value k) (specs : List JsonSpec)
    (h : mostOfAll specs ≤ k) : valuesFrom e value specs = known (valueExprs e specs) := by
  cases specs with
  | nil => rfl
  | cons spec specs =>
    obtain ⟨hspec, hspecs⟩ := Nat.max_le.mp h
    rw [valuesFrom, valueFrom_eq hvalue spec hspec, valuesFrom_eq hvalue specs hspecs]
    exact known_bind _ fun x => known_bind _ fun xs => rfl

theorem mapPairsFrom_eq (hvalue : KnownUpTo e value k) (pairs : List (String × JsonSpec))
    (h : mostOfPairs pairs ≤ k) : mapPairsFrom e value pairs = known (mapPairs e pairs) := by
  cases pairs with
  | nil => rfl
  | cons pair pairs =>
    obtain ⟨name, spec⟩ := pair
    obtain ⟨hspec, hpairs⟩ := Nat.max_le.mp h
    rw [mapPairsFrom, valueFrom_eq hvalue spec hspec, mapPairsFrom_eq hvalue pairs hpairs]
    exact known_bind _ fun name => known_bind _ fun x => known_bind _ fun ps => rfl

end

mutual

theorem objectPairsFrom_eq (hvalue : KnownUpTo e value k) (spec : JsonSpec)
    (h : mostSeparators spec ≤ k) : objectPairsFrom e value spec = known (objectPairs e spec) := by
  cases spec with
  | text s =>
    refine known_mapM fun item hitem => itemPairFrom_eq fun name t hsplit => hvalue t ?_
    have hmem := separators_of_mem_items_le hitem
    have hlt := separators_of_splitPair hsplit
    have hs : separators s.toList ≤ k := h
    omega
  | list specs => exact elementPairsFrom_eq hvalue specs h
  | map pairs => exact mapPairsFrom_eq hvalue pairs h
  | literal v => rfl

theorem elementPairsFrom_eq (hvalue : KnownUpTo e value k) (specs : List JsonSpec)
    (h : mostOfAll specs ≤ k) : elementPairsFrom e value specs = known (elementPairs e specs) := by
  cases specs with
  | nil => rfl
  | cons spec specs =>
    obtain ⟨hspec, hspecs⟩ := Nat.max_le.mp h
    cases spec with
    | list items => rfl
    | literal v => rfl
    | text s | map pairs =>
      rw [elementPairsFrom, objectPairsFrom_eq hvalue _ hspec,
        elementPairsFrom_eq hvalue specs hspecs]
      · exact known_bind _ fun ps => known_bind _ fun qs => rfl
      · nofun
      · nofun

end

theorem arrayItemsFrom_eq (hvalue : KnownUpTo e value k) (spec : JsonSpec)
    (h : mostSeparators spec ≤ k) : arrayItemsFrom e value spec = known (arrayItems e spec) := by
  cases spec with
  | text s =>
    refine known_mapM fun item hitem => hvalue item ?_
    exact Nat.le_trans (separators_of_mem_items_le hitem) h
  | list specs => exact valuesFrom_eq hvalue specs h
  | map pairs => rfl
  | literal v => rfl

end

theorem compileWithin_eq (d : Dialect) {spec : JsonSpec} (shape : JsonShape)
    (h : mostSeparators spec < n) :
    compileWithin n d spec shape = known (compile d spec shape) := by
  have hvalue : KnownUpTo d.engine (textWithin d.engine n) (mostSeparators spec) :=
    fun t ht => textWithin_eq (Nat.lt_of_le_of_lt ht h)
  unfold compileWithin compile
  split
  · rfl
  cases shape with
  | object => rw [objectPairsFrom_eq hvalue spec (Nat.le_refl _), known_map]
  | array => rw [arrayItemsFrom_eq hvalue spec (Nat.le_refl _), known_map]

end SqlBuilder.JsonSpec
