import Mathlib.Data.List.Basic
import SqlBuilder.Config

/-!
# Statements cut for the log

A statement that is too long for the log is cut where its bytes reach the limit, or at the last
place before that where a character is whole. This is the longest start of the statement that
fits, so the cut never goes through a character, and no more is left out than has to be.
-/
namespace SqlBuilder

variable {text a b : String} {max n : Nat}

/-- Every start of the text with at most so many bytes is a start of the one that is kept, which
has at most so many bytes itself. -/
structure LongestWithin (max : Nat) (text kept : String) : Prop where
  front : ∃ rest, text = kept ++ rest
  fits : kept.utf8ByteSize ≤ max
  longest : ∀ s rest, text = s ++ rest → s.utf8ByteSize ≤ max → ∃ m, kept = s ++ m

theorem LongestWithin.unique (ha : LongestWithin max text a) (hb : LongestWithin max text b) :
    a = b := by
  obtain ⟨rest, hrest⟩ := ha.front
  obtain ⟨rest', hrest'⟩ := hb.front
  obtain ⟨m, hm⟩ := hb.longest a rest hrest ha.fits
  obtain ⟨m', hm'⟩ := ha.longest b rest' hrest' hb.fits
  have hsize : a.utf8ByteSize = a.utf8ByteSize + m.utf8ByteSize + m'.utf8ByteSize := by
    rw [← String.utf8ByteSize_append, ← hm, ← String.utf8ByteSize_append, ← hm']
  have hempty : m = "" := String.utf8ByteSize_eq_zero_iff.mp (by omega)
  rw [hm, hempty, String.append_empty]

theorem utf8ByteSize_ofList_cons (c : Char) (cs : List Char) :
    (String.ofList (c :: cs)).utf8ByteSize = c.utf8Size + (String.ofList cs).utf8ByteSize := by
  rw [String.ofList_cons, String.utf8ByteSize_append, String.utf8ByteSize_singleton]

theorem utf8ByteSize_fittingChars_le (max : Nat) (cs : List Char) :
    (String.ofList (fittingChars max cs)).utf8ByteSize ≤ max := by
  induction cs generalizing max with
  | nil => exact Nat.zero_le max
  | cons c cs ih =>
    rw [fittingChars]
    split
    · rw [utf8ByteSize_ofList_cons]
      have := ih (max - c.utf8Size)
      omega
    · exact Nat.zero_le max

theorem exists_fittingChars_append (max : Nat) (cs : List Char) :
    ∃ rest, cs = fittingChars max cs ++ rest := by
  induction cs generalizing max with
  | nil => exact ⟨[], rfl⟩
  | cons c cs ih =>
    rw [fittingChars]
    split
    · obtain ⟨rest, hrest⟩ := ih (max - c.utf8Size)
      exact ⟨rest, congrArg (c :: ·) hrest⟩
    · exact ⟨c :: cs, rfl⟩

theorem fittingChars_append (ds : List Char) (hds : (String.ofList ds).utf8ByteSize ≤ max)
    (rest : List Char) : ∃ more, fittingChars max (ds ++ rest) = ds ++ more := by
  induction ds generalizing max with
  | nil => exact ⟨fittingChars max rest, rfl⟩
  | cons d ds ih =>
    rw [utf8ByteSize_ofList_cons] at hds
    have hleft : (String.ofList ds).utf8ByteSize ≤ max - d.utf8Size := by omega
    obtain ⟨more, hmore⟩ := ih hleft
    rw [List.cons_append, fittingChars, if_pos (by omega), hmore]
    exact ⟨more, rfl⟩

theorem longestWithin_fittingChars (max : Nat) (text : String) :
    LongestWithin max text (String.ofList (fittingChars max text.toList)) where
  front := by
    obtain ⟨rest, hrest⟩ := exists_fittingChars_append max text.toList
    refine ⟨String.ofList rest, ?_⟩
    rw [← String.ofList_append, ← hrest, String.ofList_toList]
  fits := utf8ByteSize_fittingChars_le max text.toList
  longest := by
    rintro s rest rfl hs
    rw [← String.ofList_toList (s := s)] at hs
    obtain ⟨more, hmore⟩ := fittingChars_append s.toList hs rest.toList
    refine ⟨String.ofList more, ?_⟩
    rw [String.toList_append, hmore, String.ofList_append, String.ofList_toList]

/-- The last byte offset up to the limit at which a character begins or the text ends. -/
def boundaryUpTo (text : String) : Nat → Nat
  | 0 => 0
  | n + 1 => if String.Pos.Raw.isValid text ⟨n + 1⟩ then n + 1 else boundaryUpTo text n

/-- The text that so many bytes spell at the start of another one. There is none where the other
text is shorter, or where the last of these bytes leave a character unfinished. -/
def firstBytes? (text : String) (n : Nat) : Option String :=
  if n ≤ text.utf8ByteSize then String.fromUTF8? (text.toByteArray.extract 0 n) else none

theorem boundaryUpTo_le (text : String) (n : Nat) : boundaryUpTo text n ≤ n := by
  induction n with
  | zero => exact Nat.le_refl 0
  | succ n ih =>
    rw [boundaryUpTo]
    split
    · exact Nat.le_refl _
    · exact Nat.le_succ_of_le ih

theorem isValid_boundaryUpTo (text : String) (n : Nat) :
    String.Pos.Raw.IsValid text ⟨boundaryUpTo text n⟩ := by
  induction n with
  | zero => exact String.Pos.Raw.isValid_zero
  | succ n ih =>
    rw [boundaryUpTo]
    split
    · rename_i h
      exact String.Pos.Raw.isValid_eq_true_iff.mp h
    · exact ih

theorem le_boundaryUpTo {m : Nat} (hm : String.Pos.Raw.IsValid text ⟨m⟩) (h : m ≤ n) :
    m ≤ boundaryUpTo text n := by
  induction n with
  | zero => exact h
  | succ n ih =>
    rw [boundaryUpTo]
    split
    · exact h
    · rename_i hend
      have hne : m ≠ n + 1 := by
        rintro rfl
        exact hend (String.Pos.Raw.isValid_eq_true_iff.mpr hm)
      exact ih (by omega)

theorem firstBytes?_append (a b : String) : firstBytes? (a ++ b) a.utf8ByteSize = some a := by
  rw [firstBytes?, if_pos (by rw [String.utf8ByteSize_append]; omega), String.toByteArray_append,
    ByteArray.extract_append_eq_left String.size_toByteArray.symm, String.fromUTF8?,
    dif_pos a.isValidUTF8]
  rfl

theorem exists_append_of_le {s rest : String} (h : a ++ b = s ++ rest)
    (hs : s.utf8ByteSize ≤ a.utf8ByteSize) : ∃ m, a = s ++ m := by
  have hchars : a.toList ++ b.toList = s.toList ++ rest.toList := by
    rw [← String.toList_append, h, String.toList_append]
  obtain ⟨m, hm, -⟩ | ⟨m, hm, -⟩ := List.append_eq_append_iff.mp hchars
  · have hsm : s = a ++ String.ofList m := by
      rw [← String.toList_inj, String.toList_append, hm, String.toList_ofList]
    rw [hsm, String.utf8ByteSize_append] at hs
    have hempty : String.ofList m = "" := String.utf8ByteSize_eq_zero_iff.mp (by omega)
    exact ⟨"", by rw [hsm, hempty, String.append_empty, String.append_empty]⟩
  · refine ⟨String.ofList m, ?_⟩
    rw [← String.toList_inj, String.toList_append, hm, String.toList_ofList]

/-- Walking back from the limit finds the end of the longest start that fits. -/
theorem exists_firstBytes (text : String) (max : Nat) :
    ∃ kept, firstBytes? text (boundaryUpTo text max) = some kept ∧
      LongestWithin max text kept := by
  obtain ⟨kept, rest, rfl, hend⟩ :=
    String.Pos.Raw.isValid_iff_exists_append.mp (isValid_boundaryUpTo text max)
  have hsize : boundaryUpTo (kept ++ rest) max = kept.utf8ByteSize :=
    congrArg String.Pos.Raw.byteIdx hend
  refine ⟨kept, hsize ▸ firstBytes?_append kept rest, ⟨rest, rfl⟩,
    hsize ▸ boundaryUpTo_le (kept ++ rest) max, fun s rest' h hs => ?_⟩
  have hvalid : String.Pos.Raw.IsValid (kept ++ rest) ⟨s.utf8ByteSize⟩ :=
    String.Pos.Raw.isValid_iff_exists_append.mpr ⟨s, rest', h, rfl⟩
  exact exists_append_of_le h (hsize ▸ le_boundaryUpTo hvalid hs)

namespace Config

/-- A statement is logged as it is when there is no limit or its bytes are within it. Otherwise
the walk back from the limit ends at a whole character, even at the start of the text, and what
stands before is the longest start of the statement within the limit. This is logged, with three
dots behind. -/
theorem logs_longest_start (c : Config) (sql : String) :
    (c.maxLogLength = none → c.loggedSql sql = sql) ∧
    ∀ max, c.maxLogLength = some max →
      (sql.utf8ByteSize ≤ max → c.loggedSql sql = sql) ∧
      (max < sql.utf8ByteSize →
        String.Pos.Raw.IsValid sql ⟨boundaryUpTo sql max⟩ ∧
        ∃ kept, firstBytes? sql (boundaryUpTo sql max) = some kept ∧
          LongestWithin max sql kept ∧ c.loggedSql sql = kept ++ "...") := by
  refine ⟨fun hnone => ?_, fun max hmax => ⟨fun hfits => ?_, fun hlong => ?_⟩⟩
  · rw [loggedSql, hnone]
  · rw [loggedSql, hmax]
    exact if_pos hfits
  · obtain ⟨kept, hbytes, hkept⟩ := exists_firstBytes sql max
    refine ⟨isValid_boundaryUpTo sql max, kept, hbytes, hkept, ?_⟩
    have hsame := (longestWithin_fittingChars max sql).unique hkept
    rw [loggedSql, hmax]
    show (if sql.utf8ByteSize ≤ max then sql
      else String.ofList (fittingChars max sql.toList ++ ['.', '.', '.'])) = kept ++ "..."
    rw [if_neg (Nat.not_le_of_lt hlong), String.ofList_append, hsame]

/-- A limit of no bytes, or one inside the first character, leaves nothing but the dots. -/
theorem narrow_limits_log_dots :
    (∀ max ∈ [0, 1], max < "é = 1".utf8ByteSize ∧
      firstBytes? "é = 1" (boundaryUpTo "é = 1" max) = some "" ∧
      LongestWithin max "é = 1" "" ∧ loggedSql { maxLogLength := some max } "é = 1" = "...") ∧
    "é = 1".utf8ByteSize ≤ 6 ∧ loggedSql { maxLogLength := some 6 } "é = 1" = "é = 1" ∧
    loggedSql { maxLogLength := none } "é = 1" = "é = 1" := by
  have hfits : "é = 1".utf8ByteSize ≤ 6 := by decide
  have hcut : ∀ max ∈ [0, 1], max < "é = 1".utf8ByteSize ∧
      firstBytes? "é = 1" (boundaryUpTo "é = 1" max) = some "" := by decide
  refine ⟨fun max hmax => ?_, hfits, ((logs_longest_start _ "é = 1").2 6 rfl).1 hfits,
    (logs_longest_start _ "é = 1").1 rfl⟩
  obtain ⟨hlong, hnothing⟩ := hcut max hmax
  obtain ⟨-, kept, hbytes, hkept, hlogged⟩ :=
    ((logs_longest_start { maxLogLength := some max } "é = 1").2 max rfl).2 hlong
  rw [hnothing] at hbytes
  cases hbytes
  exact ⟨hlong, hnothing, hkept, hlogged⟩

end Config

end SqlBuilder
