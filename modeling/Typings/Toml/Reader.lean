import Typings.Toml.Scalar
import Typings.Toml.Table

/-!
# Reading TOML

A document is read into statements, each up to the end of its line, and the statements make the table
of the document.

* `readValue?`: a value at the front of a text.
* `readStatements?`: the statements of a text.
* `parse?`: the table of a text.

Every statement ends with its line, but arrays may go over several lines and tables between braces may
not. How deep values nest and how many parts a key has are limited. Nothing is read in part: a
document with one statement that cannot be read has no table.
-/

namespace Typings.Toml

/-- How deep arrays and tables between braces may nest. -/
def maxNesting : Nat := 79

/-- How many parts a key may have. -/
def maxParts : Nat := 79

/-! ## Keys -/

/-- The characters of a key without quotes. -/
def isKeyChar (c : Char) : Bool := c.isAlphanum || c == '_' || c == '-'

/-- A part of a key. -/
def readPart? (t : Text) : Option (Text × Text) :=
  match t.span isKeyChar with
  | ([], rest) => readLine? rest
  | (part, rest) => some (part, rest)

/-- The parts of a key with the points between them. -/
def readParts? : Nat → Text → Option ((List Text) × Text)
  | 0, _ => none
  | fuel + 1, t => do
    let (part, rest) ← readPart? (skipSpace t)
    match skipSpace rest with
    | '.' :: rest =>
      let (parts, rest) ← readParts? fuel rest
      pure (part :: parts, rest)
    | rest => pure ([part], rest)

/-- A key with the blanks around it. -/
def readKey? (t : Text) : Option (Key × Text) := do
  let (parts, rest) ← readParts? maxParts t
  match parts.reverse with
  | [] => none
  | last :: front => pure (⟨front.reverse, last⟩, rest)

/-! ## Values -/

/-- The rest after a comment, up to the end of its line. -/
def skipComment : Text → Text
  | '#' :: t => t.dropWhile isPlain
  | t => t

/-- The rest after blanks, ends of lines and comments. -/
def skipTrivia : Nat → Text → Option Text
  | 0, _ => none
  | fuel + 1, t =>
    match skipSpace t with
    | '#' :: t => (newline? (skipComment ('#' :: t))).bind (skipTrivia fuel)
    | t => match newline? t with
      | some rest => skipTrivia fuel rest
      | none => some t

/-- A value that is neither an array nor a table. -/
def readScalar? (t : Text) : Option (Toml × Text) :=
  match t with
  | 't' :: 'r' :: 'u' :: 'e' :: rest => some (.boolean true, rest)
  | 'f' :: 'a' :: 'l' :: 's' :: 'e' :: rest => some (.boolean false, rest)
  | '"' :: _ => (readString? t).map fun (s, rest) => (.string s, rest)
  | '\'' :: _ => (readString? t).map fun (s, rest) => (.string s, rest)
  | _ =>
    match readDateTime? t with
    | some (d, rest) => some (.dateTime d, rest)
    | none => readNumber? t

mutual

/-- A value at the front of a text; arrays and tables nest at most `depth` deep.  Each nesting
    and each item uses up fuel, so the length of the text is enough. -/
def readValue? : Nat → Nat → Text → Option (Toml × Text)
  | 0, _, _ => none
  | fuel + 1, depth, t =>
    match t with
    | '[' :: rest =>
      match depth with
      | 0 => none
      | depth + 1 =>
        (readItems? fuel depth rest).map fun (items, rest) => (.array items, rest)
    | '\x7b' :: rest =>
      match depth with
      | 0 => none
      | depth + 1 =>
        match skipSpace rest with
        | '\x7d' :: rest => some (.table .inline [], rest)
        | rest => do
          let (pairs, rest) ← readPairs? fuel depth rest
          pure (← ofPairs? pairs, rest)
    | t => readScalar? t

/-- The items of an array up to its closing bracket; a comma may stand after the last. -/
def readItems? : Nat → Nat → Text → Option ((List Toml) × Text)
  | 0, _, _ => none
  | fuel + 1, depth, t =>
    match skipTrivia (t.length + 1) t with
    | none => none
    | some (']' :: rest) => some ([], rest)
    | some t =>
      match readValue? fuel depth t with
      | none => none
      | some (item, rest) =>
        match skipTrivia (rest.length + 1) rest with
        | some (',' :: rest) =>
          (readItems? fuel depth rest).map fun (items, rest) => (item :: items, rest)
        | some (']' :: rest) => some ([item], rest)
        | _ => none

/-- The pairs of a table up to its closing brace; no comma may stand after the last. -/
def readPairs? : Nat → Nat → Text → Option ((List (Key × Toml)) × Text)
  | 0, _, _ => none
  | fuel + 1, depth, t =>
    match readKey? t with
    | some (key, '=' :: rest) =>
      match readValue? fuel depth (skipSpace rest) with
      | none => none
      | some (value, rest) =>
        match skipSpace rest with
        | ',' :: rest =>
          (readPairs? fuel depth rest).map fun (pairs, rest) => ((key, value) :: pairs, rest)
        | '\x7d' :: rest => some ([(key, value)], rest)
        | _ => none
    | _ => none

end

/-! ## Statements -/

/-- The rest after the end of a line, before which only blanks and a comment may stand. -/
def endLine? (t : Text) : Option Text :=
  match skipComment (skipSpace t) with
  | [] => some []
  | t => newline? t

/-- A statement without the end of its line. -/
def readStatement? : Text → Option (Statement × Text)
  | '[' :: '[' :: t =>
    match readKey? t with
    | some (key, ']' :: ']' :: rest) => some (.arrayHeader key, rest)
    | _ => none
  | '[' :: t =>
    match readKey? t with
    | some (key, ']' :: rest) => some (.header key, rest)
    | _ => none
  | t =>
    match readKey? t with
    | some (key, '=' :: rest) =>
      (readValue? (t.length + 1) maxNesting (skipSpace rest)).map fun (value, rest) =>
        (.pair key value, rest)
    | _ => none

/-- The statements of a text; each uses up fuel, so the length of the text is enough. -/
def readStatements? : Nat → Text → Option (List Statement)
  | 0, _ => none
  | fuel + 1, t =>
    match skipSpace t with
    | [] => some []
    | '#' :: t => (endLine? ('#' :: t)).bind (readStatements? fuel)
    | t =>
      match newline? t with
      | some rest => readStatements? fuel rest
      | none => do
        let (statement, rest) ← readStatement? t
        let rest ← endLine? rest
        let statements ← readStatements? fuel rest
        pure (statement :: statements)

/-- The table of a text, which may start with a byte order mark. -/
def parse? (t : Text) : Option Toml :=
  let t := (List.isPrefixOf? ['\uFEFF'] t).getD t
  (readStatements? (t.length + 1) t).bind ofStatements?

end Typings.Toml
