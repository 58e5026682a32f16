import Typings.Text

/-!
# JSON values

* `Json`: the values; the fields of an object stand in the order of their keys, each key once.
* `Json.Written`: a document as it is written, with repeated keys and with the leaves that only a
  reader who needs them rejects: numbers out of range and strings with half a surrogate pair.
* `Json.Written.value?`: the value of a document; the last of several equal keys wins, and arrays and
  objects may nest to a depth.

A number is a whole number of 64 bits or the bits of a double; equality of values is equality of
these.
-/

namespace Typings

/-- A number is whole, within 64 bits, or a double given by its bits. -/
inductive Json.Number where
  | int (i : Int)
  | float (bits : UInt64)
deriving DecidableEq, Repr

/-- The JSON values. -/
inductive Json where
  | null
  | bool (b : Bool)
  | number (n : Json.Number)
  | string (s : Text)
  | array (items : List Json)
  | object (fields : List (Text × Json))
deriving Inhabited

namespace Json

/-- Puts a field in its place by key; an equal key is replaced. -/
def insertField (key : Text) (value : Json) : List (Text × Json) → List (Text × Json)
  | [] => [(key, value)]
  | (k, v) :: rest =>
    match Text.compare key k with
    | .lt => (key, value) :: (k, v) :: rest
    | .eq => (k, value) :: rest
    | .gt => (k, v) :: insertField key value rest

/-- The fields in key order; of several with one key the last counts. -/
def sortFields (fields : List (Text × Json)) : List (Text × Json) :=
  fields.foldl (fun acc (k, v) => insertField k v acc) []

/-- The object with the given fields. -/
def ofFields (fields : List (Text × Json)) : Json := .object (sortFields fields)

/-- The field of an object; nothing else has fields. -/
def field? (key : Text) : Json → Option Json
  | .object fields => fields.lookup key
  | _ => none

/-- The text of a string. -/
def text? : Json → Option Text
  | .string s => some s
  | _ => none

/-- A whole number. -/
def ofInt (i : Int) : Json := .number (.int i)

/-- A number of things. -/
def ofNat (n : Nat) : Json := .number (.int n)

/-- A document as it is written. -/
inductive Written where
  | null
  | bool (b : Bool)
  /-- A number; none when it is out of range. -/
  | number (n : Option Number)
  /-- A string; none when half of a surrogate pair stands alone in it. -/
  | string (s : Option Text)
  | array (items : List Written)
  | object (fields : List (Option Text × Written))
deriving Inhabited

namespace Written

/-- How deep the arrays and objects of a document may nest. -/
def maxDepth : Nat := 127

mutual

/-- The value of a document whose arrays and objects nest at most `depth` deep. -/
def value? (depth : Nat) : Written → Option Json
  | .null => some .null
  | .bool b => some (.bool b)
  | .number n => n.map .number
  | .string s => s.map .string
  | .array items =>
    match depth with
    | 0 => none
    | d + 1 => (values? d items).map .array
  | .object fields =>
    match depth with
    | 0 => none
    | d + 1 => (fields? d fields).map ofFields

/-- The values of the items of an array. -/
def values? (depth : Nat) : List Written → Option (List Json)
  | [] => some []
  | w :: rest => do
    let v ← value? depth w
    let vs ← values? depth rest
    pure (v :: vs)

/-- The values of the fields of an object, as written. -/
def fields? (depth : Nat) : List (Option Text × Written) → Option (List (Text × Json))
  | [] => some []
  | (key, w) :: rest => do
    let k ← key
    let v ← value? depth w
    let vs ← fields? depth rest
    pure ((k, v) :: vs)

end

end Written

mutual

/-- A value as a document. -/
def toWritten : Json → Written
  | .null => .null
  | .bool b => .bool b
  | .number n => .number (some n)
  | .string s => .string (some s)
  | .array items => .array (itemsToWritten items)
  | .object fields => .object (fieldsToWritten fields)

/-- The items of an array as documents. -/
def itemsToWritten : List Json → List Written
  | [] => []
  | v :: rest => v.toWritten :: itemsToWritten rest

/-- The fields of an object as documents. -/
def fieldsToWritten : List (Text × Json) → List (Option Text × Written)
  | [] => []
  | (k, v) :: rest => (some k, v.toWritten) :: fieldsToWritten rest

end

end Json

end Typings
