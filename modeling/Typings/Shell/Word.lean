import Typings.Text

/-!
# Words of the command language

A word is made of plain and quoted text, of parameters and of the output of commands.

* `Part`, `Word`: what a word is made of.
* `Token`: words and operators.
* `tokens?`: the tokens of a script.

Between single quotes everything stands for itself; between double quotes parameters and commands
still have their meaning. An operator is the longest that a text begins with, and one digit in front
of a redirection names its stream.
-/

namespace Typings.Shell

/-- A piece of a word. -/
inductive Part where
  /-- Text as it stands; blanks in it do not divide words. -/
  | text (t : Text)
  /-- A parameter; `quoted` keeps its value in one word. -/
  | parameter (expr : Text) (quoted : Bool)
  /-- The output of a script. -/
  | output (script : Text) (quoted : Bool)
deriving DecidableEq, Repr, Inhabited

/-- The pieces of a word in order. -/
abbrev Word := List Part

/-- A word, or an operator between words. -/
inductive Token where
  | word (w : Word)
  /-- A word that is written plainly can be a keyword. -/
  | plain (t : Text)
  | op (t : Text)
  /-- A stream that goes to a file or comes from one. -/
  | redirect (stream : Nat) (op : Text)
deriving DecidableEq, Repr

/-- The word of a token. -/
def Token.word? : Token → Option Word
  | .word w => some w
  | .plain t => some [.text t]
  | _ => none

/-- A character that ends a word. -/
def isMeta (c : Char) : Bool := (" \t\n;&|<>()" : Text).contains c

/-- A character of a name. -/
def isNameChar (c : Char) : Bool := c.isAlphanum || c == '_'

/-- A character that names a parameter by itself. -/
def isSpecialName (c : Char) : Bool := ("@*#?$!-" : Text).contains c

/-- What stands up to the closing of some opened brackets, and what follows.  Escaped characters are
    passed over, and between parentheses what stands in single quotes. -/
def upToClosing (opening closing : Char) (single : Bool) (depth : Nat) :
    Text → Option (Text × Text)
  | [] => none
  | c :: rest =>
    let go (single : Bool) (depth : Nat) :=
      (upToClosing opening closing single depth rest).map fun (a, b) => (c :: a, b)
    if single then go (c != '\'') depth
    else if c == '\'' && opening == '(' then go true depth
    else if c == '\\' then
      match rest with
      | d :: rest =>
        (upToClosing opening closing false depth rest).map fun (a, b) => (c :: d :: a, b)
      | [] => none
    else if c == closing then
      match depth with
      | 0 => some ([], rest)
      | n + 1 => go false n
    else if c == opening then go false (depth + 1)
    else go false depth

/-- What follows a dollar sign, and the rest. -/
def afterDollar (quoted : Bool) : Text → Option (Part × Text)
  | '(' :: rest => (upToClosing '(' ')' false 0 rest).map fun (a, b) => (.output a quoted, b)
  | '\x7b' :: rest =>
    (upToClosing '\x7b' '\x7d' false 0 rest).map fun (a, b) => (.parameter a quoted, b)
  | c :: rest =>
    if isSpecialName c || c.isDigit then some (.parameter [c] quoted, rest)
    else if isNameChar c then
      some (.parameter ((c :: rest).takeWhile isNameChar) quoted, (c :: rest).dropWhile isNameChar)
    else some (.text ['$'], c :: rest)
  | [] => some (.text ['$'], [])

/-- The pieces in double quotes, and what follows the closing one. -/
def inQuotes : Nat → Text → Option (Word × Text)
  | 0, _ => none
  | _, [] => none
  | _ + 1, '"' :: rest => some ([], rest)
  | fuel + 1, '\\' :: c :: rest => do
    let (w, rest) ← inQuotes fuel rest
    if c == '\n' then return (w, rest)
    let kept : Text := if ("$\x60\"\\" : Text).contains c then [c] else ['\\', c]
    return (.text kept :: w, rest)
  | fuel + 1, '$' :: rest => do
    let (p, rest) ← afterDollar true rest
    let (w, rest) ← inQuotes fuel rest
    return (p :: w, rest)
  | fuel + 1, '\x60' :: rest => do
    let (script, rest) ← upToClosing '\x60' '\x60' false 0 rest
    let (w, rest) ← inQuotes fuel rest
    return (.output script true :: w, rest)
  | fuel + 1, c :: rest => do
    let (w, rest) ← inQuotes fuel rest
    return (.text [c] :: w, rest)

/-- The pieces of a word, whether it is written plainly, and what follows it. -/
def wordPieces : Nat → Text → Option (Word × Bool × Text)
  | 0, _ => none
  | _, [] => some ([], true, [])
  | fuel + 1, c :: rest =>
    if isMeta c then some ([], true, c :: rest)
    else match c, rest with
      | '\\', '\n' :: rest => wordPieces fuel rest
      | '\\', d :: rest => do
        let (w, _, rest) ← wordPieces fuel rest
        return (.text [d] :: w, false, rest)
      | '\'', rest => do
        let (t, rest) ← Text.cutFirst? '\'' rest
        let (w, _, rest) ← wordPieces fuel rest
        return (.text t :: w, false, rest)
      | '"', rest => do
        let (q, rest) ← inQuotes fuel rest
        let (w, _, rest) ← wordPieces fuel rest
        return (.text [] :: q ++ w, false, rest)
      | '$', rest => do
        let (p, rest) ← afterDollar false rest
        let (w, _, rest) ← wordPieces fuel rest
        return (p :: w, false, rest)
      | '\x60', rest => do
        let (script, rest) ← upToClosing '\x60' '\x60' false 0 rest
        let (w, _, rest) ← wordPieces fuel rest
        return (.output script false :: w, false, rest)
      | c, rest => do
        let (w, plain, rest) ← wordPieces fuel rest
        return (.text [c] :: w, plain, rest)

/-- The text of pieces that are all plain. -/
def plainText (w : Word) : Text := w.flatMap fun
  | .text t => t
  | _ => []

/-- The operators, the longer ones first. -/
def operators : List Text := ["&&", "||", ";;", ";", "&", "|", "(", ")", "\n"]

/-- The operators that redirect a stream, with the stream they mean by themselves. -/
def redirections : List (Text × Nat) :=
  [(">>".toList, 1), (">&".toList, 1), (">|".toList, 1), ("<&".toList, 0), (">".toList, 1),
    ("<".toList, 0)]

/-- An operator at the start of a text, with the stream it is for if one is named. -/
def operator? (stream : Option Nat) (t : Text) : Option (Token × Text) :=
  match redirections.findSome? fun (o, d) => (List.isPrefixOf? o t).map fun r => (o, d, r) with
  | some (o, d, rest) => some (.redirect (stream.getD d) o, rest)
  | none => operators.findSome? fun o => (List.isPrefixOf? o t).map fun r => (.op o, r)

/-- The token of a word: one digit in front of a redirection names its stream. -/
def wordToken (w : Word) (plain : Bool) (rest : Text) : Token × Text :=
  let t := plainText w
  match t, rest with
  | [d], c :: _ =>
    if plain && d.isDigit && (c == '<' || c == '>') then
      (operator? (some (d.toNat - '0'.toNat)) rest).getD (.plain t, rest)
    else (if plain then .plain t else .word w, rest)
  | _, _ => (if plain then .plain t else .word w, rest)

/-- The tokens of a text, up to where it cannot be understood. -/
def tokensWithin : Nat → Text → List Token × Bool
  | 0, _ => ([], false)
  | _, [] => ([], true)
  | fuel + 1, c :: rest =>
    if c == ' ' || c == '\t' then tokensWithin fuel rest
    else if c == '#' then tokensWithin fuel (rest.dropWhile (· != '\n'))
    else match operator? none (c :: rest) with
      | some (op, rest) =>
        let (ts, ok) := tokensWithin fuel rest
        (op :: ts, ok)
      | none =>
        match wordPieces (rest.length + 2) (c :: rest) with
        | some ([], _, rest) => tokensWithin fuel rest
        | some (w, plain, rest) =>
          let (t, rest) := wordToken w plain rest
          let (ts, ok) := tokensWithin fuel rest
          (t :: ts, ok)
        | none => ([], false)

/-- The tokens of a script, and whether all of it could be understood. -/
def tokens (script : Text) : List Token × Bool := tokensWithin (script.length + 1) script

end Typings.Shell
