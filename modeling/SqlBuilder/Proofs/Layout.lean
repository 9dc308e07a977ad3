import SqlBuilder.Layout

/-!
# Writing pieces

Pieces are written one after the other, so a layout distributes over sequences of them.
-/
namespace SqlBuilder.Layout

variable (layout : Layout)

theorem toList_write (ps : List Piece) :
    (layout.write ps).toList = ps.flatMap fun p => (p.written layout).toList := by
  simp only [write, String.toList_join, List.flatMap_map]

theorem write_nil : layout.write [] = "" := rfl

theorem write_cons (p : Piece) (ps : List Piece) :
    layout.write (p :: ps) = p.written layout ++ layout.write ps := by
  rw [← String.toList_inj, String.toList_append, toList_write, toList_write, List.flatMap_cons]

theorem write_append (ps qs : List Piece) :
    layout.write (ps ++ qs) = layout.write ps ++ layout.write qs := by
  rw [← String.toList_inj, String.toList_append, toList_write, toList_write, toList_write,
    List.flatMap_append]

theorem write_singleton (p : Piece) : layout.write [p] = p.written layout := by
  rw [← String.toList_inj, toList_write, List.flatMap_cons, List.flatMap_nil, List.append_nil]

theorem write_intercalate (sep : Piece) (lines : List (List Piece)) :
    layout.write ([sep].intercalate lines) =
      (sep.written layout).intercalate (lines.map layout.write) := by
  induction lines with
  | nil => rfl
  | cons line lines ih =>
    cases lines with
    | nil => simp
    | cons next lines =>
      rw [List.intercalate_cons_cons, write_append, write_append, ih, write_singleton,
        List.map_cons, List.map_cons, List.map_cons, String.intercalate_cons_cons]

end SqlBuilder.Layout
