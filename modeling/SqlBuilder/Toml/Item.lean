/-!
# TOML items

What a configuration document holds. Numbers with a point and moments in time are
checked when they are read, and only their presence is kept.
-/
namespace SqlBuilder.Toml

/-- How a table came about, which decides what may still be added to it. -/
inductive TableStyle where
  /-- On the way to a table with a header of its own. -/
  | implied
  | headed
  /-- On the way to a dotted key. -/
  | dotted
  | inline
  deriving DecidableEq, Repr

inductive Item where
  | bool (b : Bool)
  | int (n : Int)
  | float
  | moment
  | str (s : String)
  | arr (ofTables : Bool) (items : List Item)
  | table (style : TableStyle) (members : List (String × Item))

abbrev Members := List (String × Item)

def Members.put (key : String) (item : Item) : Members → Members
  | [] => [(key, item)]
  | m :: ms => if m.1 = key then (key, item) :: ms else m :: Members.put key item ms

namespace Item

structure Table where
  style : TableStyle
  members : Members

def ofTable (t : Table) : Item := .table t.style t.members

/-- Applies a change to the table at the end of a path. Missing tables are made on the
way. Dotted keys pass only through tables that have no header; nothing passes into an
inline table or a plain array. -/
def change (dotted : Bool) (f : Table → Option Table) : List String → Table → Option Table
  | [], t => f t
  | key :: path, t => do
    let put (item : Item) : Table := { t with members := t.members.put key item }
    match t.members.lookup key with
    | none =>
      let child ← change dotted f path ⟨if dotted then .dotted else .implied, []⟩
      return put (.ofTable child)
    | some (.table style members) =>
      if style = .inline || dotted && style = .headed then none
      else return put (.ofTable (← change dotted f path ⟨style, members⟩))
    | some (.arr true items) =>
      match items.getLast? with
      | some (.table style members) =>
        let child ← change dotted f path ⟨style, members⟩
        return put (.arr true (items.dropLast ++ [.ofTable child]))
      | _ => none
    | some _ => none

/-- Adds a member under a key that is not taken. A dotted key ends in a table that dotted
keys made, and only there. -/
def assign (path : List String) (key : String) (item : Item) : Table → Option Table :=
  change true (fun t =>
    if decide (t.style = .dotted) = path.isEmpty then none
    else if (t.members.lookup key).isSome then none
    else some { t with members := t.members.put key item }) path

def openTable (key : String) (t : Table) : Option Table :=
  match t.members.lookup key with
  | none => some { t with members := t.members.put key (.table .headed []) }
  | some (.table .implied members) =>
    some { t with members := t.members.put key (.table .headed members) }
  | some _ => none

def openElement (key : String) (t : Table) : Option Table :=
  match t.members.lookup key with
  | none => some { t with members := t.members.put key (.arr true [.table .headed []]) }
  | some (.arr true items) =>
    some { t with members := t.members.put key (.arr true (items ++ [.table .headed []])) }
  | some _ => none

end Item

end SqlBuilder.Toml
