import Typings.Json.Shortest
import Typings.Json.Value

/-!
# Writing JSON

* `Json.compact`: everything on one line, without blanks.
* `Json.pretty`: one item or field per line, two spaces deeper at each level.

A number with a fraction is written with the fewest digits among the decimals that round to it. In
strings only what has to be escaped is escaped, so that every text reads back as it was; an empty list
or object stays on its line.
-/

namespace Typings.Json

/-- A hexadecimal digit in lower case. -/
def hexDigit (n : Nat) : Char := (Nat.toDigits 16 n).headD '0'

/-- A character inside a string: quotes, backslashes and control characters are escaped. -/
def escapeChar (c : Char) : Text :=
  if c == '"' then "\\\""
  else if c == '\\' then "\\\\"
  else if c == '\x08' then "\\b"
  else if c == '\x0c' then "\\f"
  else if c == '\n' then "\\n"
  else if c == '\r' then "\\r"
  else if c == '\t' then "\\t"
  else if c.toNat < 0x20 then "\\u00" ++ [hexDigit (c.toNat / 16), hexDigit (c.toNat % 16)]
  else [c]

/-- A text as a string literal. -/
def quote (t : Text) : Text := '"' :: t.flatMap escapeChar ++ ['"']

/-- A number as text. -/
def Number.render : Number → Text
  | .int i => Text.ofInt i
  | .float bits => renderDouble bits

mutual

/-- A value on one line. -/
def compact : Json → Text
  | .null => "null"
  | .bool b => if b then "true" else "false"
  | .number n => n.render
  | .string s => quote s
  | .array items => '[' :: compactItems items ++ [']']
  | .object fields => '\x7b' :: compactFields fields ++ ['\x7d']

/-- Items with commas between them. -/
def compactItems : List Json → Text
  | [] => []
  | [v] => compact v
  | v :: w :: rest => compact v ++ ',' :: compactItems (w :: rest)

/-- Fields with commas between them. -/
def compactFields : List (Text × Json) → Text
  | [] => []
  | [(k, v)] => quote k ++ ':' :: compact v
  | (k, v) :: f :: rest => quote k ++ ':' :: compact v ++ ',' :: compactFields (f :: rest)

end

/-- The line break and the indentation at a level. -/
def newline (level : Nat) : Text := '\n' :: List.replicate (2 * level) ' '

mutual

/-- A value on several lines, itself at the given level. -/
def prettyAt (level : Nat) : Json → Text
  | .array [] => "[]"
  | .object [] => "\x7b\x7d"
  | .array items => '[' :: prettyItems (level + 1) items ++ newline level ++ [']']
  | .object fields => '\x7b' :: prettyFields (level + 1) fields ++ newline level ++ ['\x7d']
  | .null => "null"
  | .bool b => if b then "true" else "false"
  | .number n => n.render
  | .string s => quote s

/-- Items, each on its own line. -/
def prettyItems (level : Nat) : List Json → Text
  | [] => []
  | [v] => newline level ++ prettyAt level v
  | v :: w :: rest => newline level ++ prettyAt level v ++ ',' :: prettyItems level (w :: rest)

/-- Fields, each on its own line. -/
def prettyFields (level : Nat) : List (Text × Json) → Text
  | [] => []
  | [(k, v)] => newline level ++ quote k ++ ": " ++ prettyAt level v
  | (k, v) :: f :: rest =>
    newline level ++ quote k ++ ": " ++ prettyAt level v ++ ',' :: prettyFields level (f :: rest)

end

/-- A value on several lines. -/
def pretty (v : Json) : Text := prettyAt 0 v

end Typings.Json
