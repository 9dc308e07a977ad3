import SqlBuilder.Proofs.Outcome
import SqlBuilder.Answer

/-!
# Cells under their columns

An answer keeps the rows of all result sets behind each other, but the names of the columns only
once: those of the first row that has any. A look-up goes by the kept names. It finds the cell that
a row reports under its own column as long as the kept names, as far as the row goes, stand first
where the names of the row stand first.
-/
namespace SqlBuilder

open List (Forall₂)

/-- A row with the names of its own columns. -/
structure ReportedRow where
  columns : List String
  cells : List Cell

def cellUnder (columns : List String) (cells : List Cell) (column : String) : Cell :=
  ((columns.zip cells).lookup column).join

def RowMessage.reported? : RowMessage → Option ReportedRow
  | .row columns cells => some ⟨columns, cells⟩
  | _ => none

def reportedRows (messages : List RowMessage) : List ReportedRow :=
  messages.filterMap RowMessage.reported?

/-- The cell that a row reports under its own first column of that name. -/
def reportedCell (messages : List RowMessage) (index : Nat) (column : String) : Cell :=
  (reportedRows messages)[index]?.bind fun r => cellUnder r.columns r.cells column

/-- The columns of the first row that has any. -/
def keptColumns : List ReportedRow → List String
  | [] => []
  | r :: rows => if r.columns = [] then keptColumns rows else r.columns

variable {columns kept : List String} {cells : List Cell} {messages refilled : List RowMessage}

theorem cellUnder_eq (columns : List String) (cells : List Cell) (column : String) :
    cellUnder columns cells column =
      (columns.idxOf? column).bind fun p => cells[p]?.join := by
  rw [cellUnder]
  induction columns generalizing cells with
  | nil => rfl
  | cons name columns ih =>
    rw [List.idxOf?_cons]
    cases cells with
    | nil =>
      split <;> simp
    | cons cell cells =>
      rw [List.zip_cons_cons, List.lookup_cons]
      by_cases h : column = name
      · subst h
        simp
      · have hne : (column == name) = false := by simpa using h
        have hne' : (name == column) = false := by simpa using Ne.symm h
        rw [hne, hne', if_neg Bool.false_ne_true, ih, Option.bind_map]
        rfl

namespace Answer

theorem get_eq (a : Answer) (index : Nat) (column : String) :
    a.get index column = a.rows[index]?.bind fun cells => cellUnder a.columns cells column := by
  have hposition : a.columns.findIdx? (· = column) = a.columns.idxOf? column := rfl
  rw [get, hposition]
  cases hrow : a.rows[index]? with
  | none =>
    cases a.columns.idxOf? column <;> rfl
  | some cells =>
    rw [Option.bind_some, cellUnder_eq]
    cases a.columns.idxOf? column with
    | none => rfl
    | some p =>
      show (cells[p]?.bind fun cell => cell) = cells[p]?.join
      cases cells[p]? <;> rfl

theorem foldl_add (a : Answer) (messages : List RowMessage) :
    (messages.foldl add a).columns =
        (if a.columns = [] then keptColumns (reportedRows messages) else a.columns) ∧
      (messages.foldl add a).rows = a.rows ++ (reportedRows messages).map ReportedRow.cells := by
  induction messages generalizing a with
  | nil => exact ⟨by split <;> simp_all [reportedRows, keptColumns], (List.append_nil _).symm⟩
  | cons m messages ih =>
    obtain ⟨hcolumns, hrows⟩ := ih (a.add m)
    rw [List.foldl_cons, hcolumns, hrows]
    cases m with
    | row names cells =>
      have hreported : reportedRows (.row names cells :: messages) =
          ⟨names, cells⟩ :: reportedRows messages := rfl
      rw [hreported, keptColumns, List.map_cons]
      refine ⟨?_, List.append_assoc a.rows [cells] _⟩
      by_cases ha : a.columns = []
      · simp only [add, ha, if_true]
      · simp only [add, ha, if_false]
    | complete n => exact ⟨rfl, rfl⟩
    | other => exact ⟨rfl, rfl⟩

theorem get_ofMessages (messages : List RowMessage) (index : Nat) (column : String) :
    (ofMessages messages).get index column = (reportedRows messages)[index]?.bind fun r =>
      cellUnder (keptColumns (reportedRows messages)) r.cells column := by
  obtain ⟨hcolumns, hrows⟩ := foldl_add empty messages
  have hempty : empty.columns = [] := rfl
  rw [if_pos hempty] at hcolumns
  rw [get_eq, ofMessages, hcolumns, hrows]
  show ((reportedRows messages).map ReportedRow.cells)[index]?.bind _ = _
  rw [List.getElem?_map, Option.bind_map]
  rfl

end Answer

/-- As far as the columns go, the kept names stand first where the names of the columns do. -/
def SameFirsts (kept columns : List String) : Prop :=
  ∀ column p, p < columns.length → (kept.idxOf? column = some p ↔ columns.idxOf? column = some p)

theorem SameFirsts.cellUnder_eq (h : SameFirsts kept columns)
    (hcells : cells.length = columns.length) (column : String) :
    cellUnder kept cells column = cellUnder columns cells column := by
  rw [SqlBuilder.cellUnder_eq, SqlBuilder.cellUnder_eq]
  cases hown : columns.idxOf? column with
  | some p =>
    have hp : p < columns.length := by
      simp only [List.idxOf?_eq_some_iff] at hown
      exact hown.1
    rw [(h column p hp).mpr hown]
  | none =>
    cases hkept : kept.idxOf? column with
    | none => rfl
    | some p =>
      have hp : ¬p < columns.length := by
        intro hp
        rw [(h column p hp).mp hkept] at hown
        cases hown
      rw [Option.bind_some, List.getElem?_eq_none (by omega)]
      rfl

def place (p : Nat) : Cell := some (String.ofList (List.replicate p '*'))

theorem place_inj {p q : Nat} (h : place p = place q) : p = q := by
  have hchars := congrArg String.toList (Option.some.inj h)
  rw [String.toList_ofList, String.toList_ofList] at hchars
  simpa using congrArg List.length hchars

def places (n : Nat) : List Cell := (List.range n).map place

/-- Among such cells a look-up finds a place just where the name stands first. -/
theorem cellUnder_places_iff {n p : Nat} (hp : p < n) (columns : List String) (column : String) :
    cellUnder columns (places n) column = place p ↔ columns.idxOf? column = some p := by
  rw [cellUnder_eq]
  cases columns.idxOf? column with
  | none => simp [place]
  | some q =>
    rw [Option.bind_some, Option.some_inj]
    by_cases hq : q < n
    · have hcell : (places n)[q]?.join = place q := by simp [places, hq]
      rw [hcell]
      exact ⟨place_inj, congrArg place⟩
    · have hcell : (places n)[q]?.join = none := by simp [places, hq]
      rw [hcell]
      refine iff_of_false (fun h => nomatch h) ?_
      omega

theorem sameFirsts_of_places
    (h : ∀ column, cellUnder kept (places columns.length) column =
      cellUnder columns (places columns.length) column) : SameFirsts kept columns := by
  intro column p hp
  rw [← cellUnder_places_iff hp, h, cellUnder_places_iff hp]

/-- The message is the other one with cells of its own, one for each column. -/
inductive RowMessage.Refills : RowMessage → RowMessage → Prop where
  | row {columns : List String} {cells cells' : List Cell} : cells'.length = columns.length →
      Refills (.row columns cells) (.row columns cells')
  | complete (n n' : UInt64) : Refills (.complete n) (.complete n')
  | other : Refills .other .other

open RowMessage (Refills)

structure ReportedRow.SameColumns (r r' : ReportedRow) : Prop where
  columns : r'.columns = r.columns
  width : r'.cells.length = r.columns.length

theorem reportedRows_refilled (h : Forall₂ Refills messages refilled) :
    Forall₂ ReportedRow.SameColumns (reportedRows messages) (reportedRows refilled) := by
  induction h with
  | nil => exact .nil
  | cons hm _ ih =>
    cases hm with
    | row hcells => exact .cons ⟨rfl, hcells⟩ ih
    | complete n n' => exact ih
    | other => exact ih

theorem keptColumns_congr {rows rows' : List ReportedRow}
    (h : Forall₂ ReportedRow.SameColumns rows rows') : keptColumns rows' = keptColumns rows := by
  induction h with
  | nil => rfl
  | cons hr _ ih => rw [keptColumns, keptColumns, hr.columns, ih]

def RowMessage.withPlaces : RowMessage → RowMessage
  | .row columns _ => .row columns (places columns.length)
  | m => m

theorem refills_withPlaces (messages : List RowMessage) :
    Forall₂ Refills messages (messages.map RowMessage.withPlaces) := by
  rw [List.forall₂_map_right_iff]
  refine List.forall₂_same.mpr fun m _ => ?_
  cases m with
  | row columns cells => exact .row (by simp [places])
  | complete n => exact .complete n n
  | other => exact .other

theorem reportedRows_withPlaces (messages : List RowMessage) :
    reportedRows (messages.map RowMessage.withPlaces) =
      (reportedRows messages).map fun r => ⟨r.columns, places r.columns.length⟩ := by
  rw [reportedRows, reportedRows, List.filterMap_map, List.map_filterMap]
  refine List.filterMap_congr fun m _ => ?_
  cases m <;> rfl

/-- A look-up reads the cells of its row under the kept columns. These are the cells that the row
has under its own columns, whatever the cells are, if and only if in every row the names stand
first where they do among the kept ones. -/
theorem lookups_own_iff (messages : List RowMessage) :
    (∀ index column, (Answer.ofMessages messages).get index column =
      (reportedRows messages)[index]?.bind fun r =>
        cellUnder (keptColumns (reportedRows messages)) r.cells column) ∧
    ((∀ refilled, Forall₂ Refills messages refilled → ∀ index column,
        (Answer.ofMessages refilled).get index column = reportedCell refilled index column) ↔
      ∀ r ∈ reportedRows messages, SameFirsts (keptColumns (reportedRows messages)) r.columns) := by
  refine ⟨Answer.get_ofMessages messages, ⟨fun h r hr => ?_, fun h refilled hrefilled => ?_⟩⟩
  · have hplaces := refills_withPlaces messages
    obtain ⟨index, hindex⟩ := List.getElem?_of_mem hr
    refine sameFirsts_of_places fun column => ?_
    have hown := h _ hplaces index column
    rw [Answer.get_ofMessages, reportedCell, keptColumns_congr (reportedRows_refilled hplaces),
      reportedRows_withPlaces, List.getElem?_map, hindex] at hown
    exact hown
  · intro index column
    have hrows := reportedRows_refilled hrefilled
    rw [Answer.get_ofMessages, reportedCell, keptColumns_congr hrows]
    cases hrow : (reportedRows refilled)[index]? with
    | none => rfl
    | some r' =>
      obtain ⟨r, hr, hsame⟩ := Outcome.exists_of_mem_right hrows (List.mem_of_getElem? hrow)
      have hfirsts := h r hr
      rw [← hsame.columns] at hfirsts
      exact hfirsts.cellUnder_eq (hsame.columns ▸ hsame.width) column

/-- Two result sets with the same names in another order. -/
def usersAndRoles : List RowMessage :=
  [.other, .row ["id", "name"] [some "1", some "ann"], .complete 1,
    .other, .row ["name", "id"] [some "admin", some "9"], .complete 1]

theorem second_result_mixes_cells :
    (Answer.ofMessages usersAndRoles).get 1 "id" = some "admin" ∧
    reportedCell usersAndRoles 1 "id" = some "9" := by
  decide

end SqlBuilder
