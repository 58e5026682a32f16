import Typings.Toml.Value

/-!
# Reading records out of documents

A record is read from a table, whose other keys are skipped, or from a list, whose items are the
fields in order.

* `list?`, `record?`, `fieldOr?`, `field?`, `variant?`: the kinds of values.
* `Shape`, `Shape.unknownKeys`: the keys that a reader of records skips.

A reader fails where the document has something else than it asks for; what it does not ask for is
passed over. The keys that are passed over are found apart from the reading, by the shape of the
records, so reporting them changes nothing about what is read.
-/

namespace Typings.Toml

variable {α : Type}

/-- A list of what `read?` reads. -/
def list? (read? : Toml → Option α) (v : Toml) : Option (List α) := do
  (← v.items?).mapM read?

/-- The declared fields of a record. -/
def record? (names : List Text) (v : Toml) : Option Entries :=
  match v.items? with
  | some items => some (names.zip items)
  | none => v.entries?.map (·.filter (names.contains ·.1))

/-- The field `name` as `read?` reads it, or `absent` where there is none. -/
def fieldOr? (fields : Entries) (name : Text) (absent : α) (read? : Toml → Option α) : Option α :=
  match fields.lookup name with
  | some v => read? v
  | none => some absent

/-- The field `name` as `read?` reads it; there must be one. -/
def field? (fields : Entries) (name : Text) (read? : Toml → Option α) : Option α :=
  (fields.lookup name).bind read?

/-- A map from texts in the order of the keys. -/
def map? (read? : Toml → Option α) (v : Toml) : Option (List (Text × α)) := do
  let entries ← (← v.entries?).mapM fun (k, w) => (read? w).map (k, ·)
  pure (entries.mergeSort fun a b => Text.compare a.1 b.1 != .gt)

/-- A list or a table with nothing in it. -/
def isVoid : Toml → Bool
  | .array items => items.isEmpty
  | .tables items => items.isEmpty
  | .table _ entries => entries.isEmpty
  | _ => false

/-- The name of one of several cases: a string, or a table whose first key is the name of nothing
    more.  A table between braces has no other key. -/
def variant? : Toml → Option Text
  | .string s => some s
  | .table form ((name, value) :: rest) =>
    let alone := rest.isEmpty || !(form == .inline || form == .inlineDotted)
    if alone && value.isVoid then some name else none
  | _ => none

/-! ## Skipped keys -/

/-- Where a reader looks for records. -/
inductive Shape where
  /-- No records, or none whose keys count. -/
  | plain
  | record (fields : List (Text × Shape))
  | list (item : Shape)

mutual

/-- The keys that belong to no record, in the order of the document. -/
def Shape.unknownKeys : Shape → Toml → List Text
  | .plain, _ => []
  | .record fields, v =>
    match v.items? with
    | some items => unknownAmong fields items
    | none => ((v.entries?).getD []).flatMap fun (k, w) => unknownAt fields k w
  | .list item, v => ((v.items?).getD []).flatMap fun w => item.unknownKeys w

/-- The unknown keys of one entry. -/
def unknownAt : List (Text × Shape) → Text → Toml → List Text
  | [], key, _ => [key]
  | (name, shape) :: rest, key, v =>
    if name == key then shape.unknownKeys v else unknownAt rest key v

/-- The unknown keys of the fields of a record that is written as a list. -/
def unknownAmong : List (Text × Shape) → List Toml → List Text
  | (_, shape) :: rest, v :: vs => shape.unknownKeys v ++ unknownAmong rest vs
  | _, _ => []

end

end Typings.Toml
