import Mathlib.Data.List.Induction
import Mathlib.Data.Set.Card
import SqlBuilder.Cache
import SqlBuilder.Proofs.Lookup

/-!
# The cache beside a map that forgets nothing

A history of uses drives the cache, and beside it a map that expired entries never leave. As
long as the clock does not run backwards the two hold the same live entries, so what a get
answers can be told from the history alone, and dropping expired entries is never seen.
-/
namespace SqlBuilder.Cache

variable {α : Type}

inductive Use (α : Type) where
  | set (key : String) (value : α) (ttl : Option Nat) (now : Nat)
  | get (key : String) (now : Nat)
  | remove (key : String)
  | purge (now : Nat)

namespace Use

def reading? : Use α → Option Nat
  | .set _ _ _ now | .get _ now | .purge now => some now
  | .remove _ => none

def writes (key : String) : Use α → Bool
  | .set k .. | .remove k => k = key
  | .get .. | .purge _ => false

end Use

/-- The clock never runs backwards, up to a last reading. -/
def UpTo (uses : List (Use α)) (now : Nat) : Prop :=
  (uses.filterMap Use.reading? ++ [now]).Pairwise (· ≤ ·)

instance (uses : List (Use α)) (now : Nat) : Decidable (UpTo uses now) :=
  inferInstanceAs (Decidable (List.Pairwise _ _))

def use (c : Cache α) : Use α → Cache α
  | .set key value ttl now => c.set key value ttl now
  | .get key now => (c.get key now).2
  | .remove key => c.remove key
  | .purge now => c.purge now

def run (c : Cache α) (uses : List (Use α)) : Cache α := uses.foldl use c

/-- The latest set of the key has this value, no remove of the key came after it, and it has
not expired. -/
def Holds (uses : List (Use α)) (key : String) (value : α) (now : Nat) : Prop :=
  ∃ before after ttl moment, uses = before ++ .set key value ttl moment :: after ∧
    (∀ u ∈ after, u.writes key = false) ∧ ∀ d, ttl = some d → now < moment + d

def live (now : Nat) (e : Option (Entry α)) : Option (Entry α) := e.filter (·.isLive now)

theorem isLive_of_le {e : Entry α} {now later : Nat} (hle : now ≤ later)
    (h : e.isLive later = true) : e.isLive now = true := by
  obtain ⟨value, expires⟩ := e
  cases expires with
  | none => rfl
  | some moment =>
    simp only [Entry.isLive, decide_eq_true_eq] at h ⊢
    omega

theorem isLive_set_iff (value : α) (ttl : Option Nat) (moment now : Nat) :
    Entry.isLive ⟨value, ttl.map (moment + ·)⟩ now = true ↔
      ∀ d, ttl = some d → now < moment + d := by
  cases ttl <;> simp [Entry.isLive]

theorem live_eq_some_iff {now : Nat} {o : Option (Entry α)} {e : Entry α} :
    live now o = some e ↔ o = some e ∧ e.isLive now = true :=
  Option.filter_eq_some_iff

theorem live_live {now later : Nat} (hle : now ≤ later) (o : Option (Entry α)) :
    live later (live now o) = live later o := by
  ext e
  simp only [live_eq_some_iff]
  constructor
  · rintro ⟨⟨ho, -⟩, he⟩
    exact ⟨ho, he⟩
  · rintro ⟨ho, he⟩
    exact ⟨⟨ho, isLive_of_le hle he⟩, he⟩

def Distinct (c : Cache α) : Prop := (c.entries.map Prod.fst).Nodup

theorem Distinct.use {c : Cache α} (h : c.Distinct) (u : Use α) : (c.use u).Distinct := by
  cases u with
  | set key value ttl now =>
    refine List.nodup_cons.mpr ⟨?_, Lookup.nodup_filter h _⟩
    simp [remove]
  | get key now =>
    simp only [Cache.use, get]
    split
    · exact h
    · split
      · exact h
      · exact Lookup.nodup_filter h _
  | remove key => exact Lookup.nodup_filter h _
  | purge now => exact Lookup.nodup_filter h _

theorem lookup_remove {c : Cache α} (h : c.Distinct) (key key' : String) :
    (c.remove key).lookup key' = if key' = key then none else c.lookup key' := by
  refine (Lookup.lookup_filter h (fun p => p.1 ≠ key) key').trans ?_
  change (c.lookup key').filter (fun _ => key' ≠ key) = _
  by_cases hk : key' = key
  · simp [hk]
  · cases c.lookup key' <;> simp [hk]

theorem lookup_set {c : Cache α} (h : c.Distinct) (key : String) (value : α) (ttl : Option Nat)
    (now : Nat) (key' : String) :
    (c.set key value ttl now).lookup key' =
      if key' = key then some ⟨value, ttl.map (now + ·)⟩ else c.lookup key' := by
  by_cases hk : key' = key
  · simp [set, lookup, hk]
  · have hne : (key' == key) = false := by simpa using hk
    have hremove := lookup_remove h key key'
    rw [lookup, set, List.lookup_cons, hne]
    rwa [if_neg hk] at hremove ⊢

/-- With two entries under a key, the second one would come to light when the first one goes. -/
theorem lookup_purge {c : Cache α} (h : c.Distinct) (now : Nat) (key : String) :
    (c.purge now).lookup key = live now (c.lookup key) :=
  Lookup.lookup_filter h (fun p => p.2.isLive now) key

theorem fst_get (c : Cache α) (key : String) (now : Nat) :
    (c.get key now).1 = (live now (c.lookup key)).map Entry.value := by
  rw [get]
  cases c.lookup key with
  | none => rfl
  | some e => by_cases he : e.isLive now = true <;> simp [live, Option.filter, he]

theorem lookup_get {c : Cache α} (h : c.Distinct) (key : String) (now : Nat) (key' : String) :
    (c.get key now).2.lookup key' =
      if key' = key then live now (c.lookup key') else c.lookup key' := by
  rw [get]
  by_cases hk : key' = key
  · subst hk
    cases he : c.lookup key' with
    | none => simp [he, live]
    | some e =>
      by_cases hlive : e.isLive now = true
      · simp [hlive, he, live, Option.filter]
      · simp [hlive, lookup_remove h, live, Option.filter]
  · cases c.lookup key with
    | none => simp [hk]
    | some e => by_cases hlive : e.isLive now = true <;> simp [hlive, lookup_remove h, hk]

/-- What a map that expired entries never leave holds under each key. -/
abbrev Kept (α : Type) := String → Option (Entry α)

namespace Kept

def use (m : Kept α) : Use α → Kept α
  | .set key value ttl now => Function.update m key (some ⟨value, ttl.map (now + ·)⟩)
  | .remove key => Function.update m key none
  | .get .. | .purge _ => m

def run (m : Kept α) (uses : List (Use α)) : Kept α := uses.foldl use m

def empty : Kept α := fun _ => none

theorem use_of_not_writes (m : Kept α) {u : Use α} {key : String} (h : u.writes key = false) :
    m.use u key = m key := by
  cases u with
  | set k value ttl now =>
    have hne : key ≠ k := fun heq => by simp [Use.writes, heq] at h
    exact Function.update_of_ne hne _ _
  | remove k =>
    have hne : key ≠ k := fun heq => by simp [Use.writes, heq] at h
    exact Function.update_of_ne hne _ _
  | get _ _ => rfl
  | purge _ => rfl

theorem use_of_writes (m m' : Kept α) {u : Use α} {key : String} (h : u.writes key = true) :
    m.use u key = m'.use u key := by
  cases u with
  | set k value ttl now =>
    obtain rfl : k = key := by simpa [Use.writes] using h
    simp [use]
  | remove k =>
    obtain rfl : k = key := by simpa [Use.writes] using h
    simp [use]
  | get _ _ => cases h
  | purge _ => cases h

theorem run_concat (m : Kept α) (uses : List (Use α)) (u : Use α) :
    m.run (uses ++ [u]) = (m.run uses).use u := by
  simp [run]

theorem run_of_not_writes (m : Kept α) {uses : List (Use α)} {key : String}
    (h : ∀ u ∈ uses, u.writes key = false) : m.run uses key = m key := by
  induction uses using List.reverseRecOn with
  | nil => rfl
  | append_singleton uses u ih =>
    rw [run_concat, use_of_not_writes _ (h u (by simp))]
    exact ih fun v hv => h v (by simp [hv])

/-- Under a key stands what the uses that write the key have left there. -/
theorem run_filter (m : Kept α) (uses : List (Use α)) (key : String) :
    m.run (uses.filter (Use.writes key)) key = m.run uses key := by
  induction uses using List.reverseRecOn with
  | nil => rfl
  | append_singleton uses u ih =>
    rw [List.filter_append, run_concat]
    by_cases hu : u.writes key = true
    · rw [List.filter_singleton, hu, cond_true, run_concat]
      exact use_of_writes _ _ hu
    · rw [Bool.not_eq_true] at hu
      rw [List.filter_singleton, hu, use_of_not_writes _ hu]
      simpa using ih

/-- What stands under a key comes from the latest set. -/
theorem run_eq_some_iff (uses : List (Use α)) (key : String) (e : Entry α) :
    empty.run uses key = some e ↔
      ∃ before after value ttl moment, uses = before ++ .set key value ttl moment :: after ∧
        (∀ u ∈ after, u.writes key = false) ∧ e = ⟨value, ttl.map (moment + ·)⟩ := by
  constructor
  · intro h
    induction uses using List.reverseRecOn with
    | nil => cases h
    | append_singleton uses u ih =>
      rw [run_concat] at h
      by_cases hu : u.writes key = true
      · cases u with
        | set k value ttl moment =>
          obtain rfl : k = key := by simpa [Use.writes] using hu
          refine ⟨uses, [], value, ttl, moment, rfl, by simp, ?_⟩
          simpa [use] using h.symm
        | remove k =>
          obtain rfl : k = key := by simpa [Use.writes] using hu
          simp [use] at h
        | get _ _ => cases hu
        | purge _ => cases hu
      · rw [Bool.not_eq_true] at hu
        rw [use_of_not_writes _ hu] at h
        obtain ⟨before, after, value, ttl, moment, rfl, hafter, he⟩ := ih h
        refine ⟨before, after ++ [u], value, ttl, moment, by simp, ?_, he⟩
        intro v hv
        rcases List.mem_append.mp hv with hv | hv
        · exact hafter v hv
        · exact List.mem_singleton.mp hv ▸ hu
  · rintro ⟨before, after, value, ttl, moment, rfl, hafter, rfl⟩
    rw [run, List.foldl_append, List.foldl_cons]
    refine (run_of_not_writes _ hafter).trans ?_
    simp [use]

theorem live_run_iff (uses : List (Use α)) (key : String) (value : α) (now : Nat) :
    (live now (empty.run uses key)).map Entry.value = some value ↔ Holds uses key value now := by
  simp only [Option.map_eq_some_iff, live_eq_some_iff, run_eq_some_iff]
  constructor
  · rintro ⟨_, ⟨⟨before, after, value, ttl, moment, huses, hafter, rfl⟩, hlive⟩, rfl⟩
    exact ⟨before, after, ttl, moment, huses, hafter, (isLive_set_iff ..).mp hlive⟩
  · rintro ⟨before, after, ttl, moment, huses, hafter, hlive⟩
    exact ⟨⟨value, ttl.map (moment + ·)⟩, ⟨⟨before, after, value, ttl, moment, huses, hafter,
      rfl⟩, (isLive_set_iff ..).mpr hlive⟩, rfl⟩

end Kept

/-- From `now` on the cache and the map have the same live entries. -/
structure Refines (c : Cache α) (m : Kept α) (now : Nat) : Prop where
  distinct : c.Distinct
  live_eq : ∀ later, now ≤ later → ∀ key, live later (c.lookup key) = live later (m key)

namespace Refines

variable {c : Cache α} {m : Kept α} {now : Nat}

theorem mono (h : Refines c m now) {later : Nat} (hle : now ≤ later) : Refines c m later :=
  ⟨h.distinct, fun t ht => h.live_eq t (hle.trans ht)⟩

/-- What a use does to the entry of a key it does to the live entries of both, and a use that
drops an entry drops one that has expired. -/
theorem use (h : Refines c m now) (u : Use α) (hread : ∀ t, u.reading? = some t → now = t) :
    Refines (c.use u) (m.use u) now := by
  refine ⟨h.distinct.use u, fun later hlater key => ?_⟩
  -- Only `get` and `purge` treat the two differently, and what they drop stays expired.
  cases u with
  | set key' value ttl t =>
    rw [Cache.use, Kept.use, lookup_set h.distinct, Function.update_apply]
    split
    · rfl
    · exact h.live_eq later hlater key
  | get key' t =>
    obtain rfl := hread t rfl
    rw [Cache.use, Kept.use, lookup_get h.distinct]
    split
    · rw [live_live hlater, h.live_eq later hlater]
    · exact h.live_eq later hlater key
  | remove key' =>
    rw [Cache.use, Kept.use, lookup_remove h.distinct, Function.update_apply]
    split
    · rfl
    · exact h.live_eq later hlater key
  | purge t =>
    obtain rfl := hread t rfl
    rw [Cache.use, Kept.use, lookup_purge h.distinct, live_live hlater, h.live_eq later hlater]

end Refines

theorem UpTo.of_concat {uses : List (Use α)} {u : Use α} {now : Nat}
    (h : UpTo (uses ++ [u]) now) : UpTo uses ((u.reading?).getD now) ∧
      (u.reading?).getD now ≤ now := by
  rw [UpTo, List.filterMap_append] at h
  cases hu : u.reading? with
  | none => simpa [hu, UpTo] using h
  | some t =>
    simp only [List.filterMap_cons, List.filterMap_nil, hu] at h
    obtain ⟨hbefore, -, hlast⟩ := List.pairwise_append.mp h
    exact ⟨hbefore, hlast t (by simp) now (by simp)⟩

theorem refines_run {uses : List (Use α)} {now : Nat} (h : UpTo uses now) :
    Refines (empty.run uses) (Kept.empty.run uses) now := by
  induction uses using List.reverseRecOn generalizing now with
  | nil => exact ⟨List.nodup_nil, fun _ _ _ => rfl⟩
  | append_singleton uses u ih =>
    obtain ⟨hbefore, hle⟩ := h.of_concat
    rw [Kept.run_concat, run, List.foldl_append]
    refine ((ih hbefore).use u fun t ht => ?_).mono hle
    rw [ht, Option.getD_some]

theorem fst_get_run {uses : List (Use α)} {now : Nat} (h : UpTo uses now) (key : String) :
    ((empty.run uses).get key now).1 = (live now (Kept.empty.run uses key)).map Entry.value := by
  rw [fst_get, (refines_run h).live_eq now le_rfl]

theorem fst_get_run_iff {uses : List (Use α)} {now : Nat} (h : UpTo uses now) (key : String)
    (value : α) : ((empty.run uses).get key now).1 = some value ↔ Holds uses key value now := by
  rw [fst_get_run h, Kept.live_run_iff]

theorem encard_live {c : Cache α} (h : c.Distinct) (now : Nat) :
    {key | ∃ e, live now (c.lookup key) = some e}.encard = (c.purge now).size := by
  have hpurged : (c.purge now).Distinct := h.use (.purge now)
  have hkeys : {key | ∃ e, live now (c.lookup key) = some e} =
      ((c.purge now).entries.map Prod.fst).toFinset := by
    ext key
    rw [Set.mem_ofPred_eq, Finset.mem_coe, List.mem_toFinset, ← Lookup.exists_lookup_iff hpurged]
    simp only [← lookup_purge h now key]
    rfl
  rw [hkeys, Set.encard_coe_eq_coe_finsetCard, List.toFinset_card_of_nodup hpurged,
    List.length_map]
  rfl

theorem size_purge_le (c : Cache α) (now : Nat) : (c.purge now).size ≤ c.size :=
  List.length_filter_le _ _

theorem holds_iff_live {uses : List (Use α)} {now : Nat} (h : UpTo uses now) (key : String) :
    (∃ value, Holds uses key value now) ↔
      ∃ e, live now ((empty.run uses).lookup key) = some e := by
  simp only [← Kept.live_run_iff, Option.map_eq_some_iff]
  rw [(refines_run h).live_eq now le_rfl]
  constructor
  · rintro ⟨_, e, he, -⟩
    exact ⟨e, he⟩
  · rintro ⟨e, he⟩
    exact ⟨e.value, e, he, rfl⟩

/-- After any history a get answers with the value of the latest set of its key, unless a remove
came after it or it has expired. Two histories that agree in what they set and remove under the
key answer alike, whatever they read, purge or do to other keys. The size is never below the
number of live keys, and a purge makes it that number. -/
theorem gets_answer_latest_set (uses : List (Use α)) (now : Nat) (h : UpTo uses now) :
    (∀ key value, ((empty.run uses).get key now).1 = some value ↔ Holds uses key value now) ∧
    (∀ uses' key, UpTo uses' now →
      uses'.filter (Use.writes key) = uses.filter (Use.writes key) →
      ((empty.run uses').get key now).1 = ((empty.run uses).get key now).1) ∧
    {key | ∃ value, Holds uses key value now}.encard ≤ (empty.run uses).size ∧
    {key | ∃ value, Holds uses key value now}.encard = ((empty.run uses).purge now).size := by
  have hcount : {key | ∃ value, Holds uses key value now}.encard =
      ((empty.run uses).purge now).size := by
    simp only [holds_iff_live h]
    exact encard_live (refines_run h).distinct now
  refine ⟨fst_get_run_iff h, fun uses' key h' hwrites => ?_, ?_, hcount⟩
  · rw [fst_get_run h, fst_get_run h', ← Kept.run_filter, hwrites, Kept.run_filter]
  · rw [hcount]
    exact_mod_cast size_purge_le (empty.run uses) now

def versionHistory : List (Use Nat) :=
  [.set "main" 13 (some 5) 0, .set "gone" 9 (some 0) 1, .set "main" 14 (some 60) 2,
   .set "old" 8 none 2, .remove "old", .get "gone" 3, .set "spare" 15 (some 4) 3]

theorem versionHistory_answers :
    UpTo versionHistory 7 ∧ ((empty.run versionHistory).get "main" 7).1 = some 14 ∧
    Holds versionHistory "main" 14 7 ∧ (∀ value, ¬ Holds versionHistory "spare" value 7) ∧
    ((empty.run [.set "main" 13 (some 5) 0, .set "main" 14 (some 60) 2]).get "main" 7).1 =
      some 14 ∧
    (empty.run versionHistory).size = 2 ∧
    {key | ∃ value, Holds versionHistory key value 7}.encard = 1 := by
  have hupTo : UpTo versionHistory 7 := by decide
  have hmain : ((empty.run versionHistory).get "main" 7).1 = some 14 := by decide
  have hspare : ((empty.run versionHistory).get "spare" 7).1 = none := by decide
  obtain ⟨hget, halike, -, hcount⟩ := gets_answer_latest_set versionHistory 7 hupTo
  have hbare := halike [.set "main" 13 (some 5) 0, .set "main" 14 (some 60) 2] "main" (by decide)
    rfl
  refine ⟨hupTo, hmain, (hget _ _).mp hmain, fun value hholds => ?_, hbare.trans hmain,
    by decide, ?_⟩
  · have hsome := (hget _ _).mpr hholds
    rw [hspare] at hsome
    cases hsome
  · rw [hcount]
    rfl

end SqlBuilder.Cache
