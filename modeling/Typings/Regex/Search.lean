import Typings.Regex.Footprint
import Typings.Regex.Meaning
import Typings.Regex.Reader

/-!
# Searching

An expression is written out as a program of small steps.  A search follows the preferred steps first
and never comes to one step at one place twice, so it ends after as many moves as there are pairs of
steps and places.

* `compile`: the program of an expression.
* `Pattern`: an expression with its source and its program.
* `Pattern.find?`: the leftmost match, the preferred one at its place.

Greedy and lazy repetition differ only in which of two steps is preferred, and a condition on a place
is a step that takes no character.
-/

namespace Typings.Regex

open Unicode (CodeSet)

/-- A step of a program; the numbers are the steps that follow. -/
inductive Step where
  | accept
  | char (s : CodeSet) (next : Nat)
  | look (l : Look) (unicode : Bool) (next : Nat)
  /-- Notes the place in a slot. -/
  | mark (slot : Nat) (next : Nat)
  /-- Two ways, the preferred one first. -/
  | fork (first second : Nat)
deriving Inhabited

/-- A program is its steps. -/
abbrev Program := Array Step

/-- The program with one more step, and the number of that step. -/
def Program.add (p : Program) (s : Step) : Nat × Program := (p.size, p.push s)

/-- A fork that enters `body` or goes to `exit`. -/
def loopFork (greedy : Bool) (body exit : Nat) : Step :=
  if greedy then .fork body exit else .fork exit body

/-- `n` copies in a row, each built before what follows it. -/
def copies (build : Nat → Program → Nat × Program) : Nat → Nat → Program → Nat × Program
  | 0, next, p => (next, p)
  | n + 1, next, p =>
    let (start, p) := build next p
    copies build n start p

/-- `n` copies, each of which may be the last. -/
def optionalCopies (build : Nat → Program → Nat × Program) (greedy : Bool) (exit : Nat) :
    Nat → Nat → Program → Nat × Program
  | 0, next, p => (next, p)
  | n + 1, next, p =>
    let (body, p) := build next p
    let (fork, p) := Program.add p (loopFork greedy body exit)
    optionalCopies build greedy exit n fork p

/-- Adds the steps of an expression that goes on with `next`; gives its first step. -/
def compile : Expr → Nat → Program → Nat × Program
  | .empty, next, p => (next, p)
  | .literal t, next, p =>
    t.foldr (fun c (next, p) => Program.add p (.char (.single c) next)) (next, p)
  | .set s, next, p => Program.add p (.char s next)
  | .look l u, next, p => Program.add p (.look l u next)
  | .group index e, next, p =>
    let (close, p) := Program.add p (.mark (2 * index + 1) next)
    let (body, p) := compile e close p
    Program.add p (.mark (2 * index) body)
  | .concat a b, next, p =>
    let (second, p) := compile b next p
    compile a second p
  | .alt a b, next, p =>
    let (second, p) := compile b next p
    let (first, p) := compile a next p
    Program.add p (.fork first second)
  | .repetition e n (some m) greedy, next, p =>
    let (start, p) := optionalCopies (compile e) greedy next (m - n) next p
    copies (compile e) n start p
  | .repetition e n none greedy, next, p =>
    -- The loop's fork comes first, so that its body can go back to it.
    let (fork, p) := Program.add p .accept
    let (body, p) := compile e fork p
    let p := p.setIfInBounds fork (loopFork greedy body next)
    match n with
    | 0 => if e.consumes then (fork, p) else Program.add p (loopFork greedy body next)
    | n + 1 => copies (compile e) n body p

/-- The places noted so far, slot by slot. -/
abbrev Slots := List (Nat × Nat)

/-- A way still to be tried: a step, a place and the slots. -/
structure Thread where
  step : Nat
  place : Nat
  slots : Slots

/-- The search at work: the ways still to be tried and the pairs of step and place done. -/
structure Search where
  threads : List Thread
  visited : Array Bool

/-- Follows threads until one accepts; gives its end and its slots, and the pairs done. -/
def follow (p : Program) (text : Array Char) : Nat → Search → Option (Nat × Slots) × Array Bool
  | 0, s => (none, s.visited)
  | fuel + 1, s =>
    match s.threads with
    | [] => (none, s.visited)
    | t :: more =>
      let key := t.step * (text.size + 1) + t.place
      if s.visited.getD key true then follow p text fuel { s with threads := more }
      else
        let visited := s.visited.setIfInBounds key true
        match p.getD t.step .accept with
        | .accept => (some (t.place, t.slots), visited)
        | .char set next =>
          match text[t.place]? with
          | some c =>
            if set.has c then follow p text fuel ⟨⟨next, t.place + 1, t.slots⟩ :: more, visited⟩
            else follow p text fuel ⟨more, visited⟩
          | none => follow p text fuel ⟨more, visited⟩
        | .look l unicode next =>
          let before := if t.place = 0 then none else text[t.place - 1]?
          let isWord := if unicode then Unicode.isWord else isAsciiWord
          if l.holds isWord before text[t.place]? then
            follow p text fuel ⟨⟨next, t.place, t.slots⟩ :: more, visited⟩
          else follow p text fuel ⟨more, visited⟩
        | .mark slot next =>
          follow p text fuel ⟨⟨next, t.place, (slot, t.place) :: t.slots⟩ :: more, visited⟩
        | .fork first second =>
          let threads := ⟨first, t.place, t.slots⟩ :: ⟨second, t.place, t.slots⟩ :: more
          follow p text fuel ⟨threads, visited⟩

/-- A match: where it is, and the places noted. -/
structure Match where
  start : Nat
  stop : Nat
  slots : Slots

/-- The range of a group, if the match went through it. -/
def Match.group? (m : Match) (index : Nat) : Option (Nat × Nat) :=
  if index = 0 then some (m.start, m.stop)
  else do
    let start ← m.slots.lookup (2 * index)
    let stop ← m.slots.lookup (2 * index + 1)
    pure (start, stop)

/-- A regular expression ready to be searched for. -/
structure Pattern where
  source : Text
  groups : Nat
  names : List (Text × Nat)
  program : Program
  start : Nat
deriving Inhabited

namespace Pattern

/-- A pattern from its source. -/
def parse (source : Text) : Except Fault Pattern := do
  let reading ← readTree source
  let e ← reading.tree.expr
  if !fits e then throw .tooLarge
  let (start, program) := compile e 0 #[.accept]
  return ⟨source, reading.groups, reading.names, program, start⟩

/-- The match from the first of the next `count` places that has one. -/
def searchFrom (p : Pattern) (text : Array Char) : Nat → Nat → Array Bool → Option Match
  | 0, _, _ => none
  | count + 1, place, visited =>
    let fuel := 2 * p.program.size * (text.size + 1) + 2
    match follow p.program text fuel ⟨[⟨p.start, place, []⟩], visited⟩ with
    | (some (stop, slots), _) => some ⟨place, stop, slots⟩
    | (none, visited) => searchFrom p text count (place + 1) visited

/-- The leftmost match in a text. -/
def find? (p : Pattern) (t : Text) : Option Match :=
  let text := t.toArray
  searchFrom p text (text.size + 1) 0 (Array.replicate (p.program.size * (text.size + 1)) false)

/-- The text has a match. -/
def isMatch (p : Pattern) (t : Text) : Bool := (p.find? t).isSome

/-- The text of a group of a match, empty where the group took no part. -/
def groupText (t : Text) (m : Match) (index : Nat) : Text :=
  match m.group? index with
  | some (start, stop) => (t.drop start).take (stop - start)
  | none => []

end Pattern

end Typings.Regex
