import Typings.Toml.DateTime

/-!
# TOML values

A document is a table.  Whether a table can still be extended depends on how it came about, so every
table keeps its form.

* `Toml`: the values.
* `Toml.items?`, `Toml.entries?`: a value as a list and as a table.

A value between quotes is a string whatever it looks like; the other values are told apart by how they
are written, and a double is kept as its bits.  Records are read from tables by `Toml.Decode`, and a
date can be read as a table with its spelling as the only entry.
-/

namespace Typings

/-- How a table came about. -/
inductive Toml.TableForm where
  /-- Written between braces. -/
  | inline
  /-- By a dotted key between braces. -/
  | inlineDotted
  /-- By a dotted key. -/
  | dotted
  /-- By the header of a table inside of it. -/
  | implied
  /-- By a header of its own. -/
  | headed
deriving DecidableEq, Repr, Inhabited

/-- Made by a dotted key. -/
def Toml.TableForm.isDotted : Toml.TableForm → Bool
  | .inlineDotted => true
  | .dotted => true
  | _ => false

/-- Made along the way to something else, so that dotted keys may add to it. -/
def Toml.TableForm.isOpen (f : Toml.TableForm) : Bool := f.isDotted || f == .implied

/-- The values of a document. -/
inductive Toml where
  | string (s : Text)
  | integer (i : Int)
  /-- A double given by its bits. -/
  | float (bits : UInt64)
  | boolean (b : Bool)
  | dateTime (d : Toml.DateTime)
  | array (items : List Toml)
  /-- A table with its entries in the order in which they were defined. -/
  | table (form : Toml.TableForm) (entries : List (Text × Toml))
  /-- Tables that were each added by a header. -/
  | tables (items : List (List (Text × Toml)))
deriving Inhabited

namespace Toml

/-- The entries of a table in the order in which they were defined, each key once. -/
abbrev Entries := List (Text × Toml)

/-- The name under which a date stands where a table is asked for. -/
def dateTimeKey : Text := "$__toml_private_datetime"

/-- The items of a list. -/
def items? : Toml → Option (List Toml)
  | .array items => some items
  | .tables items => some (items.map (.table .headed))
  | _ => none

/-- The entries of a table; a date is a table with its spelling as the only entry. -/
def entries? : Toml → Option Entries
  | .table _ entries => some entries
  | .dateTime d => some [(dateTimeKey, .string d.text)]
  | _ => none

/-- The text of a string. -/
def text? : Toml → Option Text
  | .string s => some s
  | _ => none

/-- A truth value. -/
def bool? : Toml → Option Bool
  | .boolean b => some b
  | _ => none

end Toml

end Typings
