import SqlBuilder.ServerVersion
import SqlBuilder.Proofs.Text

/-!
# Versions read back

The text of a version spells its three numbers, and whatever a server adds behind them or
blanks put around it, reading gives the version again.
-/
namespace SqlBuilder

namespace Decimal

theorem isDigit_eq (c : Char) : isDigit c = c.isDigit := by
  rw [isDigit, Char.isDigit]
  rfl

theorem readNat?_toDigits (n : Nat) : readNat? (Nat.toDigits 10 n) = some n := by
  have hne : Nat.toDigits 10 n ≠ [] := List.ne_nil_of_length_pos Nat.length_toDigits_pos
  have hall : (Nat.toDigits 10 n).all isDigit = true := by
    rw [List.all_eq_true]
    intro c hc
    rw [isDigit_eq]
    exact Nat.isDigit_of_mem_toDigits (by decide) (by decide) hc
  have hvalue : digitsValue (Nat.toDigits 10 n) = n := Nat.ofDigitChars_ten_toDigits
  simp [readNat?, hne, hall, hvalue]

end Decimal

namespace ServerVersion

def digits (n : UInt32) : List Char := Nat.toDigits 10 n.toNat

theorem digits_ne_nil (n : UInt32) : digits n ≠ [] :=
  List.ne_nil_of_length_pos Nat.length_toDigits_pos

theorem isDigit_of_mem_digits {n : UInt32} {c : Char} (h : c ∈ digits n) : c.isDigit = true :=
  Nat.isDigit_of_mem_toDigits (by decide) (by decide) h

theorem readNumber?_digits (n : UInt32) : readNumber? (digits n) = some n := by
  rw [readNumber?, digits, Decimal.readNat?_toDigits, Option.bind_some, if_pos n.toNat_lt,
    UInt32.ofNat_toNat]

def runs (v : ServerVersion) : List (List Char) := [digits v.major, digits v.minor, digits v.patch]

theorem toList_text (v : ServerVersion) : v.text.toList = ['.'].intercalate v.runs := by
  have hpoint : (toString ".").toList = ['.'] := rfl
  simp [text, runs, digits, Nat.toString_eq_repr, Nat.toList_repr, hpoint]

/-- What may stand in the head of a text that is read as a version. -/
def inHead (c : Char) : Bool := Decimal.isDigit c || c = '.'

theorem inHead_of_mem_digits {n : UInt32} {c : Char} (h : c ∈ digits n) : inHead c = true := by
  rw [inHead, Decimal.isDigit_eq, isDigit_of_mem_digits h, Bool.true_or]

theorem inHead_of_mem_text {v : ServerVersion} {c : Char} (h : c ∈ v.text.toList) :
    inHead c = true := by
  have hparts : c ∈ digits v.major ∨ c = '.' ∨ c ∈ digits v.minor ∨ c = '.' ∨
      c ∈ digits v.patch := by
    simpa [toList_text, runs] using h
  rcases hparts with h | rfl | h | rfl | h
  · exact inHead_of_mem_digits h
  · rfl
  · exact inHead_of_mem_digits h
  · rfl
  · exact inHead_of_mem_digits h

theorem not_isBlank_of_inHead {c : Char} (h : inHead c = true) : Text.isBlank c = false := by
  rw [inHead, Bool.or_eq_true, decide_eq_true_eq] at h
  rcases h with h | rfl
  · simp only [Decimal.isDigit, Bool.and_eq_true, decide_eq_true_eq] at h
    have hlow : 48 ≤ c.toNat := h.1
    have hhigh : c.toNat ≤ 57 := h.2
    simp [Text.isBlank, Text.blankRanges]
    omega
  · decide

theorem takeWhile_blanks {blanks : List Char} (h : Text.allBlank blanks = true) :
    blanks.takeWhile inHead = [] := by
  cases blanks with
  | nil => rfl
  | cons c blanks =>
    rw [Text.allBlank, List.all_cons, Bool.and_eq_true] at h
    refine List.takeWhile_cons_of_neg fun hc => ?_
    rw [not_isBlank_of_inHead hc] at h
    cases h.1

theorem takeWhile_trimEnd (cs : List Char) :
    (Text.trimEnd cs).takeWhile inHead = cs.takeWhile inHead := by
  obtain ⟨blanks, hblanks, hcs⟩ := Text.exists_trimEnd_append cs
  conv_rhs => rw [hcs, List.takeWhile_append, takeWhile_blanks hblanks]
  split
  · rename_i hall
    rw [List.append_nil, (List.takeWhile_sublist _).eq_of_length hall]
  · rfl

/-- What may follow a version: it does not go on with its digits and points. -/
def Decoration (cs : List Char) : Prop := ∀ c ∈ cs.head?, c.isDigit = false ∧ c ≠ '.'

theorem decoration_nil : Decoration [] := fun _ h => nomatch h

theorem takeWhile_decoration {decoration blanks : List Char} (h : Decoration decoration)
    (hblanks : Text.allBlank blanks = true) : (decoration ++ blanks).takeWhile inHead = [] := by
  cases decoration with
  | nil => exact takeWhile_blanks hblanks
  | cons c cs =>
    obtain ⟨hdigit, hpoint⟩ := h c rfl
    refine List.takeWhile_cons_of_neg ?_
    simp [inHead, Decimal.isDigit_eq, hdigit, hpoint]

theorem trimStart_text (v : ServerVersion) (cs : List Char) :
    Text.trimStart (v.text.toList ++ cs) = v.text.toList ++ cs := by
  have hne : v.text.toList ≠ [] := by simp [toList_text, runs]
  obtain ⟨c, ds, htext⟩ := List.exists_cons_of_ne_nil hne
  have hblank : Text.isBlank c = false :=
    not_isBlank_of_inHead (inHead_of_mem_text (v := v) (by simp [htext]))
  rw [htext, List.cons_append, Text.trimStart, List.dropWhile_cons_of_neg (by simp [hblank])]

theorem numbers_decorated (v : ServerVersion) {before decoration after : String}
    (hbefore : Text.blank before = true) (hafter : Text.blank after = true)
    (hdecoration : Decoration decoration.toList) :
    numbers (before ++ v.text ++ decoration ++ after) = v.runs := by
  have hstart : Text.trimStart (before ++ v.text ++ decoration ++ after).toList =
      v.text.toList ++ (decoration.toList ++ after.toList) := by
    simp only [String.toList_append, List.append_assoc]
    rw [Text.trimStart_append, if_pos (Text.trimStart_eq_nil.mpr hbefore), trimStart_text]
  have hhead : (Text.trim (before ++ v.text ++ decoration ++ after).toList).takeWhile inHead =
      v.text.toList := by
    rw [Text.trim, takeWhile_trimEnd, hstart,
      List.takeWhile_append_of_pos fun c hc => inHead_of_mem_text hc,
      takeWhile_decoration hdecoration hafter, List.append_nil]
  have hpoint : ∀ run ∈ v.runs, '.' ∉ run := by
    intro run hrun hmem
    have hdigit : ('.' : Char).isDigit = true := by
      simp only [runs, List.mem_cons, List.not_mem_nil, or_false] at hrun
      rcases hrun with rfl | rfl | rfl <;> exact isDigit_of_mem_digits hmem
    cases hdigit
  rw [numbers]
  change ((List.takeWhile inHead _).splitOn '.').filter _ = _
  rw [hhead, toList_text, List.splitOn_intercalate '.' hpoint (List.cons_ne_nil _ _)]
  simp [runs, digits_ne_nil]

theorem parse?_decorated (v : ServerVersion) {before decoration after : String}
    (hbefore : Text.blank before = true) (hafter : Text.blank after = true)
    (hdecoration : Decoration decoration.toList) :
    parse? (before ++ v.text ++ decoration ++ after) = some v := by
  simp [parse?, numbers_decorated v hbefore hafter hdecoration, runs, readNumber?_digits]

theorem parse?_text (v : ServerVersion) : parse? v.text = some v := by
  have h := @parse?_decorated v "" "" "" rfl rfl (String.toList_empty ▸ decoration_nil)
  simpa using h

end ServerVersion

end SqlBuilder
