import Typings.Regex.Search

/-!
# Replacing

A template names groups of the match by `$1`, `$name` or, in braces, by any name; `$$` is a dollar
sign, and a dollar sign that names nothing stands for itself.

A name that is a number is the group with that number. A group that is not there or took no part in
the match stands for no text. Only the first match is replaced, and what stands around it is kept.
-/

namespace Typings.Regex

/-- A piece of a template. -/
inductive TemplatePiece where
  | text (t : Text)
  | group (name : Text)

/-- The characters of group names that need no braces. -/
def isTemplateName (c : Char) : Bool := c.isAlphanum || c == '_'

/-- The pieces of a template. -/
def templatePieces : Nat → Text → List TemplatePiece
  | 0, t => [.text t]
  | _ + 1, [] => []
  | fuel + 1, '$' :: '$' :: t => .text ['$'] :: templatePieces fuel t
  | fuel + 1, '$' :: '\x7b' :: t =>
    match Text.cutFirst? '\x7d' t with
    | some (name, after) => .group name :: templatePieces fuel after
    | none => .text ['$'] :: templatePieces fuel ('\x7b' :: t)
  | fuel + 1, '$' :: t =>
    match t.span isTemplateName with
    | ([], _) => .text ['$'] :: templatePieces fuel t
    | (name, after) => .group name :: templatePieces fuel after
  | fuel + 1, c :: t => .text [c] :: templatePieces fuel t

/-- The number a group name is, if it is one. -/
def groupNumber? (name : Text) : Option Nat :=
  let digits := (List.isPrefixOf? "+" name).getD name
  if digits.isEmpty || !digits.all Char.isDigit then none
  else some (digits.foldl (fun n c => n * 10 + (c.toNat - '0'.toNat)) 0)

namespace Pattern

/-- The group with a name or a number. -/
def groupIndex? (p : Pattern) (name : Text) : Option Nat :=
  match groupNumber? name with
  | some n => if n ≤ p.groups then some n else none
  | none => p.names.lookup name

/-- A template filled in from a match. -/
def expand (p : Pattern) (t : Text) (m : Match) (template : Text) : Text :=
  (templatePieces (template.length + 1) template).flatMap fun
    | .text u => u
    | .group name =>
      match p.groupIndex? name with
      | some index => groupText t m index
      | none => []

/-- The text with its first match replaced by a template. -/
def replaceFirst (p : Pattern) (t template : Text) : Text :=
  match p.find? t with
  | some m => t.take m.start ++ p.expand t m template ++ t.drop m.stop
  | none => t

end Pattern

end Typings.Regex
