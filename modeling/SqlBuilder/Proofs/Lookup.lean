import Mathlib.Data.List.Nodup

/-!
# Looking up under distinct keys

In a list of pairs whose keys are distinct, what is found under a key is the one pair with that
key, so leaving out pairs leaves out only what was found there.
-/
namespace SqlBuilder.Lookup

variable {β : Type} {pairs : List (String × β)}

theorem lookup_eq_some_iff_mem (h : (pairs.map Prod.fst).Nodup) {key : String} {b : β} :
    pairs.lookup key = some b ↔ (key, b) ∈ pairs := by
  induction pairs with
  | nil => simp
  | cons p pairs ih =>
    obtain ⟨key', b'⟩ := p
    rw [List.map_cons, List.nodup_cons] at h
    rw [List.lookup_cons]
    by_cases hc : key = key'
    · subst hc
      have hnone : (key, b) ∉ pairs := fun hmem => h.1 (List.mem_map.mpr ⟨_, hmem, rfl⟩)
      simp [hnone, eq_comm]
    · have hne : (key == key') = false := by simpa using hc
      simp [hne, hc, ih h.2]

theorem nodup_filter (h : (pairs.map Prod.fst).Nodup) (p : String × β → Bool) :
    ((pairs.filter p).map Prod.fst).Nodup :=
  h.sublist (List.filter_sublist.map Prod.fst)

theorem lookup_filter (h : (pairs.map Prod.fst).Nodup) (p : String × β → Bool) (key : String) :
    (pairs.filter p).lookup key = (pairs.lookup key).filter fun b => p (key, b) := by
  ext b
  rw [Option.filter_eq_some_iff, lookup_eq_some_iff_mem (nodup_filter h p),
    lookup_eq_some_iff_mem h, List.mem_filter]

theorem exists_lookup_iff (h : (pairs.map Prod.fst).Nodup) {key : String} :
    (∃ b, pairs.lookup key = some b) ↔ key ∈ pairs.map Prod.fst := by
  simp [lookup_eq_some_iff_mem h]

end SqlBuilder.Lookup
