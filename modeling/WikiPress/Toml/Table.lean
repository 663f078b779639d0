import WikiPress.Toml.Value

/-!
# WikiPress.Toml.Table

Tables while they are being read: which of them may still be added to, and from where.

Design points:

* A table comes into being by its own header, by a header of a table inside it, or by a
  dotted key. Only a table of the second sort may get a header later, only one of the
  third sort may be added to by dotted keys, and a table written as a value is closed.
* A row of tables grows by headers in double brackets; paths lead into its last table.
-/

namespace WikiPress.Toml

/-- How a table came into being. -/
inductive Origin
  /-- By its own header, or as the document itself. -/
  | header
  /-- By the header of a table inside it. -/
  | path
  | dotted
  deriving DecidableEq, Repr

/-- What a key of an open table has. -/
inductive Item
  | value (v : Value)
  | table (origin : Origin) (entries : List (String × Item))
  /-- A row of tables, each with a header. -/
  | rows (tables : List (List (String × Item)))

/-- The keys of an open table. -/
abbrev Items := List (String × Item)

/-- Gives a key an item, in place of the one it has. -/
def replaceItem (key : String) (item : Item) (items : Items) : Items :=
  items.map fun (k, old) => (k, if k = key then item else old)

/-- Changes the table at the end of a path. Tables on the way are made if need be: by
dotted keys if `dotted`, and else by a header. -/
def changeAt (dotted : Bool) (change : Origin → Items → Option Items) :
    List String → Origin → Items → Option Items
  | [], origin, items => change origin items
  | key :: path, _, items =>
      match items.lookup key with
      | none => do
          let origin := if dotted then Origin.dotted else .path
          let inner ← changeAt dotted change path origin []
          some (items ++ [(key, .table origin inner)])
      | some (.value _) => none
      | some (.table origin inner) =>
          if dotted ∧ origin = .header then none
          else do
            let inner ← changeAt dotted change path origin inner
            some (replaceItem key (.table origin inner) items)
      | some (.rows tables) => do
          let inner ← changeAt dotted change path .header (tables.getLast?.getD [])
          some (replaceItem key (.rows (tables.dropLast ++ [inner])) items)

/-- Adds a value under a key that is free. With dotted keys in front of it, the table
must be one made by dotted keys. -/
def addValue (dotted : Bool) (key : String) (v : Value) (origin : Origin) (items : Items) :
    Option Items :=
  if (origin = .dotted) ≠ dotted then none
  else if (items.lookup key).isSome then none
  else some (items ++ [(key, .value v)])

/-- Adds a value to a table under a row of keys. -/
def insertValue (keys : List String) (v : Value) (origin : Origin) (items : Items) :
    Option Items :=
  match keys.reverse with
  | [] => none
  | key :: path =>
      changeAt true (addValue (!path.isEmpty) key v) path.reverse origin items

/-- Opens the table of a header in the table around it. -/
def openTable (key : String) (_ : Origin) (items : Items) : Option Items :=
  match items.lookup key with
  | none => some (items ++ [(key, .table .header [])])
  | some (.table .path inner) => some (replaceItem key (.table .header inner) items)
  | some _ => none

/-- Opens a new table of a row in the table around it. -/
def openRow (key : String) (_ : Origin) (items : Items) : Option Items :=
  match items.lookup key with
  | none => some (items ++ [(key, .rows [[]])])
  | some (.rows tables) => some (replaceItem key (.rows (tables ++ [[]])) items)
  | some _ => none

/-- Opens the table of a header in the document. -/
def openHeader (row : Bool) (keys : List String) (items : Items) : Option Items :=
  match keys.reverse with
  | [] => none
  | key :: path =>
      changeAt false (if row then openRow key else openTable key) path.reverse .header items

mutual

/-- The value of an item. -/
def Item.toValue : Item → Value
  | .value v => v
  | .table _ items => .table (valuesOf items)
  | .rows tables => .array (rowValues tables)

/-- The values of the keys of a table. -/
def valuesOf : List (String × Item) → List (String × Value)
  | [] => []
  | (key, item) :: rest => (key, item.toValue) :: valuesOf rest

/-- The values of the tables of a row. -/
def rowValues : List (List (String × Item)) → List Value
  | [] => []
  | items :: rest => .table (valuesOf items) :: rowValues rest

end

end WikiPress.Toml
