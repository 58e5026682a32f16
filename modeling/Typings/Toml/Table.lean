import Typings.Toml.Value

/-!
# Tables of a document

A document is a row of statements.  A header says which table the pairs after it belong to, and a
dotted key leads into tables inside of that one.  No key is defined twice, and dotted keys add
neither to a table with a header or braces of its own nor to one that only a header has implied.

* `Statement`: a header or a pair.
* `insert?`: the entries of a table with one more pair.
* `descend?`: a change to the table that a header names.
* `ofStatements?`: the table of a whole document.
-/

namespace Typings.Toml

/-- The parts of a dotted key in front of the last one, and the last one. -/
structure Key where
  front : List Text
  last : Text
deriving DecidableEq, Repr, Inhabited

/-- All parts of a key. -/
def Key.parts (k : Key) : List Text := k.front ++ [k.last]

/-- The value of a key is replaced; the order stays. -/
def replace (key : Text) (value : Toml) (entries : Entries) : Entries :=
  entries.map fun (k, v) => if k == key then (k, value) else (k, v)

/-- The last of some tables is changed. -/
def changeLast? (change : Entries → Option Entries) (items : List Entries) :
    Option (List Entries) :=
  match items.reverse with
  | [] => none
  | last :: front => (change last).map fun l => (l :: front).reverse

/-! ## Pairs -/

/-- The entries with one more pair below the tables `front`; tables that are missing are made with
    the form `made`.  The table that takes the pair has the form `form`, if a dotted key led to it. -/
def insertBelow? (made : TableForm) (last : Text) (value : Toml) :
    List Text → Option TableForm → Entries → Option Entries
  | [], form, entries =>
    if form.all TableForm.isDotted && (entries.lookup last).isNone then
      some (entries ++ [(last, value)])
    else none
  | key :: rest, _, entries =>
    match entries.lookup key with
    | none => do
      let inner ← insertBelow? made last value rest (some made) []
      pure (entries ++ [(key, .table made inner)])
    | some (.table form inner) =>
      if form.isOpen then do
        let inner ← insertBelow? made last value rest (some form) inner
        pure (replace key (.table form inner) entries)
      else none
    | some (.tables items) => do
      let items ← changeLast? (insertBelow? made last value rest (some .headed)) items
      pure (replace key (.tables items) entries)
    | some _ => none

/-- The entries of a table with one more pair; tables that its key needs are made with the form
    `made`. -/
def insert? (made : TableForm) (key : Key) (value : Toml) (entries : Entries) : Option Entries :=
  insertBelow? made key.last value key.front none entries

/-- The table between braces with the given pairs. -/
def ofPairs? (pairs : List (Key × Toml)) : Option Toml :=
  (pairs.foldlM (fun entries (k, v) => insert? .inlineDotted k v entries) []).map (.table .inline)

/-! ## Headers -/

/-- Changes the table that lies below some others; tables that are missing are implied, and of tables
    with one name the last counts. -/
def descend? (change : Entries → Option Entries) : List Text → Entries → Option Entries
  | [], entries => change entries
  | key :: rest, entries =>
    match entries.lookup key with
    | none => do
      let inner ← descend? change rest []
      pure (entries ++ [(key, .table .implied inner)])
    | some (.table .inline _) => none
    | some (.table form inner) => do
      let inner ← descend? change rest inner
      pure (replace key (.table form inner) entries)
    | some (.tables items) => do
      let items ← changeLast? (descend? change rest) items
      pure (replace key (.tables items) entries)
    | some _ => none

/-- A table gets a header of its own: it is new, or was implied, and then it moves to the end. -/
def addTable? (key : Text) (entries : Entries) : Option Entries :=
  match entries.lookup key with
  | none => some (entries ++ [(key, .table .headed [])])
  | some (.table .implied inner) =>
    some (entries.filter (·.1 != key) ++ [(key, .table .headed inner)])
  | some _ => none

/-- One more table among those with one name. -/
def appendTable? (key : Text) (entries : Entries) : Option Entries :=
  match entries.lookup key with
  | none => some (entries ++ [(key, .tables [[]])])
  | some (.tables items) => some (replace key (.tables (items ++ [[]])) entries)
  | some _ => none

/-! ## Documents -/

/-- A statement of a document. -/
inductive Statement where
  /-- The pairs that follow belong to this table. -/
  | header (key : Key)
  /-- The pairs that follow belong to one more table with this name. -/
  | arrayHeader (key : Key)
  | pair (key : Key) (value : Toml)
deriving Inhabited

/-- A document so far: its entries, and the table that pairs belong to. -/
structure Draft where
  root : Entries := []
  here : List Text := []

/-- The document with one more statement. -/
def Draft.add? (d : Draft) : Statement → Option Draft
  | .header key => do
    let root ← descend? (addTable? key.last) key.front d.root
    pure { root, here := key.parts }
  | .arrayHeader key => do
    let root ← descend? (appendTable? key.last) key.front d.root
    pure { root, here := key.parts }
  | .pair key value => do
    let root ← descend? (insert? .dotted key value) d.here d.root
    pure { d with root }

/-- The table of a whole document. -/
def ofStatements? (statements : List Statement) : Option Toml :=
  (statements.foldlM Draft.add? {}).map fun d => .table .headed d.root

end Typings.Toml
