import Typings.Json.Value

/-!
# Reading records out of documents

A record is read from an object, where a declared key may stand only once and other keys are
skipped, or from an array, whose items are the fields in order.

* `Written.record?`: the declared fields that a document has.
* `fieldOr?`: one of them, or what an absent field stands for.
* `Written.text?`, `bool?`, `natBelow?`, `list?`, `nullable?`: the kinds of fields.

A field that is there and cannot be read makes the whole record unreadable; a field that is absent
stands for its default. What the document has beside the declared fields is never looked at, however
it is written.
-/

namespace Typings.Json

namespace Written

/-- A string. -/
def text? : Written → Option Text
  | .string s => s
  | _ => none

/-- A truth value. -/
def bool? : Written → Option Bool
  | .bool b => some b
  | _ => none

/-- A whole number from zero to below `bound`. -/
def natBelow? (bound : Nat) : Written → Option Nat
  | .number (some (.int i)) => if 0 ≤ i && i < bound then some i.toNat else none
  | _ => none

/-- A list of what `read?` reads. -/
def list? {α : Type} (read? : Written → Option α) : Written → Option (List α)
  | .array items => items.mapM read?
  | _ => none

/-- What `read?` reads, or nothing for `null`. -/
def nullable? {α : Type} (read? : Written → Option α) : Written → Option (Option α)
  | .null => some none
  | w => (read? w).map some

/-- The fields of an object with their keys. -/
def keyed? : Written → Option (List (Text × Written))
  | .object fields => fields.mapM fun (key, w) => key.map (·, w)
  | _ => none

/-- No two fields with one of the names. -/
def declaredOnce (names : List Text) (fields : List (Text × Written)) : Bool :=
  names.all fun name => (fields.filter (·.1 == name)).length ≤ 1

/-- The declared fields of a record. -/
def record? (names : List Text) : Written → Option (List (Text × Written))
  | .array items => if items.length ≤ names.length then some (names.zip items) else none
  | w => do
    let fields ← w.keyed?
    if declaredOnce names fields then some (fields.filter (names.contains ·.1)) else none

/-- A map from texts; the last of several equal keys wins, and keys stand in order. -/
def map? {α : Type} (read? : Written → Option α) (w : Written) : Option (List (Text × α)) := do
  let fields ← w.keyed?
  let entries ← fields.mapM fun (k, v) => (read? v).map (k, ·)
  pure (entries.foldl (fun acc (k, v) => put k v acc) [])
where
  /-- Puts an entry in its place by key. -/
  put (key : Text) (value : α) : List (Text × α) → List (Text × α)
    | [] => [(key, value)]
    | (k, v) :: rest =>
      match Text.compare key k with
      | .lt => (key, value) :: (k, v) :: rest
      | .eq => (k, value) :: rest
      | .gt => (k, v) :: put key value rest

end Written

/-- The field `name` as `read?` reads it, or `absent` where there is none. -/
def fieldOr? {α : Type} (fields : List (Text × Written)) (name : Text) (absent : α)
    (read? : Written → Option α) : Option α :=
  match fields.lookup name with
  | some w => read? w
  | none => some absent

end Typings.Json
