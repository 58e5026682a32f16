import Typings.Error
import Typings.Regex.Replace

/-!
# Aliases

An alias maps specifiers to paths.  Rules are tried in the order they were given; an exclusion removes
rules from a set and protects specifiers from all of them.

* `Alias.Rule.applies`, `Alias.Rule.apply`: what a rule does to a specifier.
* `Alias.Exclusion`: what removes rules and protects specifiers.
* `Alias.Set`: the rules in force; `resolve?` finds the one for a specifier.

The first rule that applies decides, whatever a later one would do.  The rules of a configuration come
first; a rule that is added behind them may not repeat a literal, and no exclusion may remove it.  So
a rule that is found somewhere else never takes a specifier from a configured one.
-/

namespace Typings.Alias

open Regex (Pattern)

/-- How an alias recognizes specifiers. -/
inductive Find where
  /-- A beginning that ends at a segment's end. -/
  | literal (t : Text)
  /-- A match anywhere. -/
  | pattern (p : Pattern)
deriving Inhabited

/-- The recognized text as it is shown; patterns stand between slashes. -/
def Find.text : Find → Text
  | .literal t => t
  | .pattern p => "/" ++ p.source ++ "/"

/-- An alias. -/
structure Rule where
  find : Find
  /-- The target: a path, or for a pattern a template. -/
  replacement : Text
deriving Inhabited

/-- A rule's pattern from its source. -/
def parsePattern (source : Text) : Except BuildError Pattern :=
  match Pattern.parse source with
  | .ok p => .ok p
  | .error f => .error (.pattern source f.message)

/-- A specifier is a literal, or continues it with a new segment. -/
def literalMatches (literal specifier : Text) : Bool :=
  match List.isPrefixOf? literal specifier with
  | some rest => rest.isEmpty || literal.endsWith "/" || Text.startsWith rest "/"
  | none => false

namespace Rule

/-- The rule is for the specifier. -/
def applies (r : Rule) (specifier : Text) : Bool :=
  match r.find with
  | .literal t => literalMatches t specifier
  | .pattern p => p.isMatch specifier

/-- The specifier with the matched part turned into `target`; a literal that ends in a slash keeps
    the slash. -/
def apply (r : Rule) (specifier target : Text) : Text :=
  match r.find with
  | .literal t =>
    let rest := specifier.drop t.length
    if t.endsWith "/" then target ++ "/" ++ rest else target ++ rest
  | .pattern p => p.replaceFirst specifier target

end Rule

/-- An exclusion, by value or by pattern. -/
inductive Exclusion where
  | literal (t : Text)
  | pattern (p : Pattern)
deriving Inhabited

namespace Exclusion

/-- The exclusion removes the rule: a pattern goes with its source text, a literal with an equal
    literal or a pattern that matches some of it. -/
def removes (e : Exclusion) (r : Rule) : Bool :=
  match r.find, e with
  | .pattern f, .pattern x => f.source == x.source
  | .pattern f, .literal x => f.source == x
  | .literal f, .pattern x =>
    match x.find? f with
    | some m => m.start != m.stop
    | none => false
  | .literal f, .literal x => !x.isEmpty && f == x

/-- The exclusion protects the specifier. -/
def covers (e : Exclusion) (specifier : Text) : Bool :=
  match e with
  | .literal x => x == specifier
  | .pattern x => x.isMatch specifier

end Exclusion

/-- The rules in force with the exclusions that guard them. -/
structure Set where
  rules : List Rule := []
  exclusions : List Exclusion := []
deriving Inhabited

namespace Set

/-- An exclusion of the list removes the rule. -/
def removed (exclusions : List Exclusion) (r : Rule) : Bool := exclusions.any (·.removes r)

/-- The rules that no exclusion removes. -/
def ofRules (rules : List Rule) (exclusions : List Exclusion) : Set :=
  ⟨rules.filter fun r => !removed exclusions r, exclusions⟩

/-- A literal rule of the set recognizes exactly `t`. -/
def hasLiteral (s : Set) (t : Text) : Bool :=
  s.rules.any fun r => match r.find with
    | .literal u => u == t
    | .pattern _ => false

/-- The rule may join the set: it repeats no literal and no exclusion removes it. -/
def accepts (s : Set) (r : Rule) : Bool :=
  let fresh := match r.find with
    | .literal t => !s.hasLiteral t
    | .pattern _ => true
  fresh && !removed s.exclusions r

/-- The set with one more rule at the end, if it may join. -/
def push (s : Set) (r : Rule) : Set := if s.accepts r then { s with rules := s.rules ++ [r] } else s

/-- The first rule for the specifier, unless an exclusion protects it. -/
def resolve? (s : Set) (specifier : Text) : Option Rule :=
  match s.rules.find? (·.applies specifier) with
  | some r => if s.exclusions.any (·.covers specifier) then none else some r
  | none => none

end Set

end Typings.Alias
