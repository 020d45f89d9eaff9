import JanetEmbedding.Datum.Basic

/-!
# TOML tables

A table is built up piece by piece, so it is kept open: a field is a value that is complete, a table,
or an array of tables, of which only the last can grow.

## Main definitions

* `Toml.Item`, `Toml.Fields`: the fields of an open table.
* `Toml.Fields.modifyAt?`: a change inside the table of a path.
* `Toml.Fields.toDatum`: the table as a value.
-/

namespace JanetEmbedding.Toml

/-- What is in a field. -/
inductive Item where
  | value (x : Datum)
  | table (fields : List (Text × Item))
  | tables (closed : List Datum) (last : List (Text × Item))

/-- The fields of an open table, in the order of insertion. -/
abbrev Fields := List (Text × Item)

/-- A dotted key. -/
abbrev Key := List Text

mutual

/-- An item as a value. -/
def Item.toDatum : Item → Datum
  | .value x => x
  | .table fields => .dict (fieldEntries fields)
  | .tables closed last => .list (closed ++ [.dict (fieldEntries last)])

/-- Fields as entries. -/
def fieldEntries : List (Text × Item) → Entries
  | [] => []
  | (k, item) :: fs => (.text k, item.toDatum) :: fieldEntries fs

end

namespace Fields

/-- A table as a value. -/
def toDatum (fs : Fields) : Datum := .dict (fieldEntries fs)

/-- Replaces what is in a field, given what was there. The field is made if it is missing. -/
def update? (f : Option Item → Option Item) (k : Text) : Fields → Option Fields
  | [] => (f none).map fun item => [(k, item)]
  | (k', item) :: fs =>
    if k' = k then (f (some item)).map fun item => (k, item) :: fs
    else (update? f k fs).map ((k', item) :: ·)

/-- Changes the table of a path. Missing tables are made on the way, an array of tables stands for its
last, and there is no way into a value that is complete. -/
def modifyAt? (f : Fields → Option Fields) : Key → Fields → Option Fields
  | [], fs => f fs
  | k :: ks, fs =>
    update? (fun
      | none => (modifyAt? f ks []).map .table
      | some (.table inner) => (modifyAt? f ks inner).map .table
      | some (.tables closed last) => (modifyAt? f ks last).map (.tables closed)
      | some (.value _) => none) k fs

/-- Adds a field, which may not be there. -/
def add? (k : Text) (x : Datum) : Fields → Option Fields :=
  update? (fun old => if old.isNone then some (.value x) else none) k

/-- Adds an empty table to an array of tables, which is made if it is missing. -/
def append? (k : Text) : Fields → Option Fields :=
  update? (fun
    | none => some (.tables [] [])
    | some (.tables closed last) => some (.tables (closed ++ [toDatum last]) [])
    | some _ => none) k

/-- Sets the value of a dotted key, which may not be there. -/
def addAt? (key : Key) (x : Datum) (fs : Fields) : Option Fields :=
  match key.getLast? with
  | some k => modifyAt? (add? k x) key.dropLast fs
  | none => none

end Fields

end JanetEmbedding.Toml
