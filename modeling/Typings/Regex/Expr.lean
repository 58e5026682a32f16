import Typings.Unicode.Derived

/-!
# What regular expressions match

An expression is built by functions that bring it to a simple form: neighbouring literals are one
literal, a set of one character is a literal, alternatives that each match one character are one set,
and what all alternatives begin with stands in front of them.

* `Look`: a condition on the place between two characters.
* `Expr`: an expression; of two ways to match, the one written first is preferred.
* `Expr.ofSet`, `Expr.times`, `Expr.sequence`, `Expr.choice`: the building functions.
* `Expr.minLength?`, `Expr.maxLength?`, `Expr.atTextStart`, `Expr.atTextEnd`: what every match has in
  common.
-/

namespace Typings.Regex

open Unicode (CodeSet)

/-- A condition on the place between two characters. -/
inductive Look where
  | textStart
  | textEnd
  | lineStart
  | lineEnd
  /-- As for lines, where a carriage return also ends one. -/
  | crlfStart
  | crlfEnd
  | boundary
  | noBoundary
  | wordStart
  | wordEnd
  | wordStartHalf
  | wordEndHalf
deriving DecidableEq, Repr

/-- The condition holds between the characters `before` and `after`; `isWord` tells words. -/
def Look.holds (isWord : Char → Bool) (before after : Option Char) : Look → Bool
  | .textStart => before.isNone
  | .textEnd => after.isNone
  | .lineStart => before.all (· == '\n')
  | .lineEnd => after.all (· == '\n')
  | .crlfStart => before.all fun c => c == '\n' || (c == '\r' && after != some '\n')
  | .crlfEnd => after.all fun c => c == '\r' || (c == '\n' && before != some '\r')
  | .boundary => before.any isWord != after.any isWord
  | .noBoundary => before.any isWord == after.any isWord
  | .wordStart => !before.any isWord && after.any isWord
  | .wordEnd => before.any isWord && !after.any isWord
  | .wordStartHalf => !before.any isWord
  | .wordEndHalf => !after.any isWord

/-- The word characters of ASCII. -/
def isAsciiWord (c : Char) : Bool := c.isAlphanum || c == '_'

/-- A regular expression. -/
inductive Expr where
  | empty
  /-- Characters in a row. -/
  | literal (t : Text)
  /-- One character of a set; the empty set matches nothing. -/
  | set (s : CodeSet)
  /-- A condition; `unicode` tells which characters make words. -/
  | look (l : Look) (unicode : Bool)
  | group (index : Nat) (e : Expr)
  | concat (a b : Expr)
  | alt (a b : Expr)
  /-- At least `min` and at most `max` times; a greedy one prefers more. -/
  | repetition (e : Expr) (min : Nat) (max : Option Nat) (greedy : Bool)
deriving Inhabited, DecidableEq

namespace Expr

/-! ## Views -/

/-- The items of a sequence. -/
def items : Expr → List Expr
  | .concat a b => a :: items b
  | .empty => []
  | e => [e]

/-- The branches of a choice. -/
def branches : Expr → List Expr
  | .alt a b => a :: branches b
  | e => [e]

/-- The text of a literal. -/
def literal? : Expr → Option Text
  | .literal t => some t
  | _ => none

/-- The sequence of some items that need no joining. -/
def ofItems : List Expr → Expr
  | [] => .empty
  | [e] => e
  | e :: rest => .concat e (ofItems rest)

/-- The choice between some branches that need no joining. -/
def ofBranches : List Expr → Expr
  | [] => .set .none
  | [e] => e
  | e :: rest => .alt e (ofBranches rest)

/-! ## What every match has in common -/

/-- The least number of characters of a match, if there can be one. -/
def minLength? : Expr → Option Nat
  | .empty => some 0
  | .literal t => some t.length
  | .set s => if s.isEmpty then none else some 1
  | .look _ _ => some 0
  | .group _ e => e.minLength?
  | .concat a b => do return (← a.minLength?) + (← b.minLength?)
  | .alt a b => do return min (← a.minLength?) (← b.minLength?)
  | .repetition e n _ _ => do return (← e.minLength?) * n

/-- The greatest number of characters of a match, if there is a bound. -/
def maxLength? : Expr → Option Nat
  | .empty => some 0
  | .literal t => some t.length
  | .set s => if s.isEmpty then none else some 1
  | .look _ _ => some 0
  | .group _ e => e.maxLength?
  | .concat a b => do return (← a.maxLength?) + (← b.maxLength?)
  | .alt a b => do return max (← a.maxLength?) (← b.maxLength?)
  | .repetition e _ m _ => do return (← e.maxLength?) * (← m)

/-- Every match takes at least one character. -/
def consumes (e : Expr) : Bool := e.minLength?.any (0 < ·)

/-- Every match is empty. -/
def matchesNoText (e : Expr) : Bool := e.maxLength? == some 0

/-- Every match starts at the start of the text. -/
def atTextStart : Expr → Bool
  | .empty => false
  | .literal _ => false
  | .set _ => false
  | .look l _ => l == .textStart
  | .group _ e => e.atTextStart
  | .concat a b => a.atTextStart || (a.matchesNoText && b.atTextStart)
  | .alt a b => a.atTextStart && b.atTextStart
  | .repetition e n _ _ => 0 < n && e.atTextStart

/-- Every match stops at the end of the text. -/
def atTextEnd : Expr → Bool
  | .empty => false
  | .literal _ => false
  | .set _ => false
  | .look l _ => l == .textEnd
  | .group _ e => e.atTextEnd
  | .concat a b => b.atTextEnd || (b.matchesNoText && a.atTextEnd)
  | .alt a b => a.atTextEnd && b.atTextEnd
  | .repetition e n _ _ => 0 < n && e.atTextEnd

/-! ## Building -/

/-- One character of a set. -/
def ofSet (s : CodeSet) : Expr :=
  match s.single? with
  | some c => .literal [c]
  | none => .set s

/-- An expression some number of times.  One that matches no text is never repeated. -/
def times (e : Expr) (min : Nat) (max : Option Nat) (greedy : Bool) : Expr :=
  let (min, max) :=
    if e.matchesNoText then (Nat.min min 1, some ((max.map (Nat.min · 1)).getD 1))
    else (min, max)
  if max == some 0 then .empty
  else if min == 1 && max == some 1 then e
  else .repetition e min max greedy

/-- Items with neighbouring literals joined. -/
def joinLiterals : List Expr → List Expr
  | [] => []
  | .literal s :: rest =>
    match joinLiterals rest with
    | .literal t :: more => .literal (s ++ t) :: more
    | more => .literal s :: more
  | e :: rest => e :: joinLiterals rest

/-- The expressions one after the other. -/
def sequence (es : List Expr) : Expr := ofItems (joinLiterals (es.flatMap items))

/-- The set of an expression that matches one character. -/
def set? : Expr → Option CodeSet
  | .set s => some s
  | .literal [c] => some (.single c)
  | _ => none

/-- The items that all sequences begin with. -/
def commonStart : List (List Expr) → List Expr
  | [] => []
  | [row] => row
  | row :: rows =>
    ((row.zip (commonStart rows)).takeWhile fun (a, b) => a = b).map (·.1)

/-- The branches as one set, if each matches one character. -/
def joinSets (branches : List Expr) : Expr :=
  match branches.mapM set? with
  | some sets => ofSet (CodeSet.unions sets)
  | none => ofBranches branches

/-- The first of the expressions that leads to a match. -/
def choice (es : List Expr) : Expr :=
  match es.flatMap branches with
  | [e] => e
  | bs =>
    let start := if bs.all (·.items.length ≥ 2) then commonStart (bs.map items) else []
    if start.isEmpty then joinSets bs
    else
      let rest := bs.map fun b => ofItems (b.items.drop start.length)
      sequence (start ++ [joinSets (rest.flatMap branches)])

end Expr

end Typings.Regex
