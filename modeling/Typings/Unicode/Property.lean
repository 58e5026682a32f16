import Typings.Unicode.Age
import Typings.Unicode.Break
import Typings.Unicode.ScriptExtension

/-!
# Properties by name

A property is asked for by one name, or by the name of a kind and a value of it.  Names are compared
without regard to case, spaces, hyphens, underscores, an `is` in front and characters outside ASCII.

* `PropertyQuery`: a question for a set of characters.
* `PropertyQuery.set?`: the set, if the names are known.

A name alone is looked for among the binary properties, then among the categories and then among the
scripts; with a kind in front only the values of that kind count.  A name that is nowhere found has no
set.
-/

namespace Typings.Unicode

/-- A question for the characters with some property. -/
inductive PropertyQuery where
  /-- By one name. -/
  | name (n : Text)
  /-- By a kind and a value. -/
  | value (kind v : Text)
deriving DecidableEq, Repr

/-- A name as it is compared.  A lone `c` after `is` keeps it: `isc` names something else. -/
def comparedName (name : Text) : String :=
  let plain (t : Text) : Text := (t.filter fun c =>
    c.toNat < 0x80 && !(c == ' ' || c == '_' || c == '-')).map Char.toLower
  match name with
  | i :: s :: rest =>
    if (i == 'i' || i == 'I') && (s == 's' || s == 'S') then
      let body := plain rest
      if body == ['c'] then "isc" else body.toString
    else (plain name).toString
  | _ => (plain name).toString

/-- The set with one name: a binary property, a category or a script. -/
def namedSet? (name : String) : Option CodeSet :=
  match BinaryProperty.ofName? name with
  | some p => some p.set
  | none =>
    match categorySet? name with
    | some s => some s
    | none => scriptSet? name

/-- The set of a value of a kind of property. -/
def valuedSet? (kind value : String) : Option CodeSet :=
  match kind with
  | "gc" | "generalcategory" => categorySet? value
  | "sc" | "script" => scriptSet? value
  | "scx" | "scriptextensions" => scriptExtensionSet? value
  | "age" => ageSet? value
  | "gcb" | "graphemeclusterbreak" => graphemeBreakSet? value
  | "wb" | "wordbreak" => wordBreakSet? value
  | "sb" | "sentencebreak" => sentenceBreakSet? value
  | _ => none

/-- The characters a question asks for. -/
def PropertyQuery.set? : PropertyQuery → Option CodeSet
  | .name n => namedSet? (comparedName n)
  | .value k v => valuedSet? (comparedName k) (comparedName v)

end Typings.Unicode
