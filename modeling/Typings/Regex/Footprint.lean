import Std.Data.HashMap
import Typings.Regex.ByteSequence
import Typings.Regex.Expr

/-!
# The memory an expression needs

An expression is only accepted if the automata that search for it stay within a limit.  One reads the
bytes of a text from its start, the other from its end.  Both are measured here without being built:
what counts is the number of their states and what is kept beside them.

A set outside ASCII becomes a tree of byte ranges.  Equal parts of it are shared as far as a table
remembers them; a part takes the place of an earlier one that falls on the same place of the table.

* `Memory`, `Build`: the states so far, and a step that adds some unless the limit is reached.
* `measure`: the memory of an automaton.
* `fits`: both automata stay within the limit.
-/

namespace Typings.Regex

open Unicode (CodeSet)

/-- The memory of an automaton so far, and the parts of a set that can be shared. -/
structure Memory where
  states : Nat := 0
  extra : Nat := 0
  shared : Std.HashMap UInt64 (List Nat × Nat) := {}

/-- The bytes of a state. -/
def stateBytes : Nat := 32

/-- The bytes of a way out of a state that reads a byte. -/
def edgeBytes : Nat := 8

/-- The bytes of a way out of a fork. -/
def linkBytes : Nat := 4

/-- The limit for one automaton. -/
def maxBytes : Nat := 10 * 1024 * 1024

/-- All bytes of an automaton. -/
def Memory.bytes (m : Memory) : Nat := m.states * stateBytes + m.extra

/-- A step of building; there is no next one above the limit. -/
abbrev Build := StateT Memory Option

/-- Goes on with a memory within the limit. -/
def continueWith (m : Memory) : Build Unit := fun _ =>
  if m.bytes ≤ maxBytes then some ((), m) else none

/-- Adds some states with bytes beside them; gives the number of the first. -/
def addStates (count extra : Nat) : Build Nat := do
  let m ← get
  continueWith { m with states := m.states + count, extra := m.extra + extra }
  return m.states

/-- Adds a state. -/
def addState : Build Nat := addStates 1 0

/-- Adds ways out of a fork. -/
def addLinks (count : Nat) : Build Unit := do
  let _ ← addStates 0 (count * linkBytes)

/-- Goes on from the end of a part, which takes a link if that end is a fork. -/
def linkFrom (endsInFork : Bool) : Build Unit := if endsInFork then addLinks 1 else return ()

/-! ## Sets -/

/-- The place of a key in a table of some size: the Fowler-Noll-Vo hash of its numbers. -/
def placeOf (size : UInt64) (key : List Nat) : UInt64 :=
  key.foldl (fun h n => (h ^^^ n.toUInt64) * 1099511628211) 14695981039346656037 % size

/-- The state a table remembers for a key, or else a new one, which it remembers from now on. -/
def share (size : UInt64) (key : List Nat) (extra : Nat) : Build Nat := do
  let place := placeOf size key
  match (← get).shared[place]? with
  | some (known, id) => if known == key then return id else remember place
  | none => remember place
where
  /-- Adds the state at a place. -/
  remember (place : UInt64) : Build Nat := do
    let id ← addStates 1 extra
    modify fun m => { m with shared := m.shared.insert place (key, id) }
    return id

/-- Forgets the parts of other sets. -/
def forget : Build Unit := modify fun m => { m with shared := {} }

/-- Neighbouring sequences that begin alike, each group with what follows the beginning. -/
def groupByHead : List ByteSequence → List (ByteRange × List ByteSequence)
  | [] => []
  | [] :: rest => groupByHead rest
  | (r :: tail) :: rest =>
    match groupByHead rest with
    | (s, tails) :: groups =>
      if r = s then (r, tail :: tails) :: groups else (r, [tail]) :: (s, tails) :: groups
    | [] => [(r, [tail])]

/-- The state that reads some sequences and then goes on with `target`.  `width` bounds the bytes of a
    sequence. -/
def addNode (target : Nat) : (width : Nat) → List ByteSequence → Build Nat
  | 0, _ => return target
  | width + 1, sequences => do
    let edges ← (groupByHead sequences).mapM fun (r, tails) => do
      let next ← if tails.all List.isEmpty then pure target else addNode target width tails
      return [r.first, r.last, next]
    share 10000 edges.flatten (edges.length * edgeBytes)

/-- The states that read one sequence from its end, up to `target`. -/
def addBackward (target : Nat) : ByteSequence → Build Nat
  | [] => return target
  | r :: rest => do addBackward (← share 1000 [target, r.first, r.last] 0) rest

/-- The states that read sequences from their ends, each with a link to it. -/
def addAllBackward (target : Nat) : List ByteSequence → Build Unit
  | [] => return ()
  | sequence :: rest => do
    let _ ← addBackward target sequence
    addLinks 1
    addAllBackward target rest

/-- A set with its sequences: one state with an edge for each range in ASCII, a tree of bytes
    elsewhere. -/
def buildSet (backward : Bool) (s : CodeSet) (sequences : List ByteSequence) : Build Bool := do
  forget
  if s.isAscii then
    let _ ← addStates 2 (s.ranges.length * edgeBytes)
    return false
  else if backward then
    let union ← addStates 2 0
    addAllBackward (union + 1) sequences
    return false
  else
    let target ← addState
    let _ ← addNode target 4 sequences
    return false

/-! ## Alternatives of literals -/

/-- The words of a choice that go on at a place, cut where one of them ends.  A word that ends again
    before any goes on does not cut. -/
def cutAtEnds (words : List (List Nat)) : List (List (List Nat)) :=
  let step (acc : List (List (List Nat)) × List (List Nat)) (w : List Nat) :=
    let (done, active) := acc
    if !w.isEmpty then (done, active ++ [w])
    else if !done.isEmpty && active.isEmpty && done.all List.isEmpty then acc
    else (done ++ [active], [])
  let (done, active) := words.foldl step ([], [])
  done ++ [active]

/-- Words by their first bytes, each with what follows it. -/
def groupByFirst (words : List (List Nat)) : List (Nat × List (List Nat)) :=
  words.foldl (fun groups w =>
    match w with
    | [] => groups
    | b :: tail =>
      if groups.any (·.1 == b) then
        groups.map fun (c, tails) => if c == b then (c, tails ++ [tail]) else (c, tails)
      else groups ++ [(b, [tail])]) []

/-- The states of a tree of words and the bytes beside them.  `width` bounds the bytes of a word. -/
def wordTree : (width : Nat) → List (List Nat) → Nat × Nat
  | 0, _ => (0, 0)
  | width + 1, words =>
    let chunks := (cutAtEnds words).map groupByFirst
    let filled := chunks.filter (!·.isEmpty)
    let own := filled.foldl (fun (states, extra) groups =>
      (states + 1, extra + if groups.length = 1 then 0 else groups.length * edgeBytes))
      (1, (filled.length + chunks.length - 1) * linkBytes)
    filled.flatten.foldl (fun (states, extra) (_, tails) =>
      if tails.all List.isEmpty then (states, extra)
      else
        let (s, x) := wordTree width tails
        (states + s, extra + x)) own

/-- A choice between literals. -/
def buildWords (backward : Bool) (ts : List Text) : Build Bool := do
  let words := ts.map fun t => (if backward then t.bytes.reverse else t.bytes).map UInt8.toNat
  let width := words.foldl (fun n w => max n w.length) 0
  let (states, extra) := wordTree (width + 1) words
  let _ ← addStates (states + 1) extra
  return false

/-! ## Expressions -/

/-- A branch of a choice: its text, if it is a literal, and what builds it.  Building tells whether
    the part ends in a fork. -/
structure Branch where
  literal? : Option Text
  build : Build Bool

/-- The rest of a choice after its first two branches. -/
def buildMore : List Branch → Build Bool
  | [] => return false
  | b :: rest => do
    let f ← b.build
    addLinks 1
    linkFrom f
    buildMore rest

/-- A choice between branches. -/
def buildChoice (backward : Bool) : List Branch → Build Bool
  | [] => do
    let _ ← addState
    return false
  | [b] => b.build
  | b :: c :: rest =>
    match (b :: c :: rest).mapM (·.literal?) with
    | some ts => buildWords backward ts
    | none => do
      let f ← b.build
      let g ← c.build
      let _ ← addStates 2 (2 * linkBytes)
      linkFrom f
      linkFrom g
      buildMore rest

/-- More copies of a part, after one that ended in a fork or not. -/
def buildCopies (part : Build Bool) :
    (count : Nat) → (endsInFork : Bool) → Memory → Option (Bool × Memory)
  | 0, f, m => some (f, m)
  | n + 1, f, m =>
    match part m with
    | none => none
    | some (g, m) =>
      match linkFrom f m with
      | none => none
      | some (_, m) => buildCopies part n g m

/-- A part some number of times. -/
def buildExactly (part : Build Bool) : Nat → Build Bool
  | 0 => do
    let _ ← addState
    return false
  | n + 1 => do
    let f ← part
    buildCopies part n f

/-- More copies of a part, each of which may be the last. -/
def buildOptional (part : Build Bool) :
    (count : Nat) → (endsInFork : Bool) → Memory → Option (Bool × Memory)
  | 0, f, m => some (f, m)
  | n + 1, f, m =>
    match (do
      let _ ← addState
      let g ← part
      linkFrom f
      addLinks 2
      return g : Build Bool) m with
    | none => none
    | some (g, m) => buildOptional part n g m

/-- A part at least `min` times; `consumes` tells that it never matches the empty text. -/
def buildAtLeast (part : Build Bool) (consumes : Bool) : (min : Nat) → Build Bool
  | 0 => do
    if consumes then
      let _ ← addState
      let f ← part
      addLinks 1
      linkFrom f
      return true
    else
      let f ← part
      let _ ← addStates 3 0
      linkFrom f
      addLinks 4
      return false
  | 1 => do
    let f ← part
    let _ ← addState
    linkFrom f
    addLinks 1
    return true
  | n + 2 => do
    let f ← buildExactly part (n + 1)
    let g ← part
    let _ ← addState
    linkFrom f
    linkFrom g
    addLinks 1
    return true

/-- A repetition of a part. -/
def buildRepetition (part : Build Bool) (consumes : Bool) (min : Nat) :
    (max : Option Nat) → Build Bool
  | none => buildAtLeast part consumes min
  | some max => do
    if min = 0 && max = 1 then
      let _ ← addState
      let f ← part
      let _ ← addState
      addLinks 2
      linkFrom f
      return false
    else if min = max then buildExactly part min
    else
      let f ← buildExactly part min
      let _ ← addState
      let g ← buildOptional part (max - min) f
      linkFrom g
      return false

/-- The branches of an expression.  Only the automaton that reads forward notes groups. -/
def branchesOf (backward : Bool) : Expr → List Branch
  | .empty => [⟨none, do
    let _ ← addState
    return false⟩]
  | .literal t => [⟨some t, do
    let _ ← addStates t.byteSize 0
    return false⟩]
  | .set s => [⟨none, buildSet backward s (byteSequences s)⟩]
  | .look _ _ => [⟨none, do
    let _ ← addState
    return false⟩]
  | .group _ e =>
    let inner := buildChoice backward (branchesOf backward e)
    if backward then [⟨none, inner⟩]
    else [⟨none, do
      let _ ← addState
      let f ← inner
      let _ ← addState
      linkFrom f
      return false⟩]
  | .concat a b =>
    let first := buildChoice backward (branchesOf backward a)
    let second := buildChoice backward (branchesOf backward b)
    [⟨none, do
      let f ← if backward then second else first
      let g ← if backward then first else second
      linkFrom f
      return g⟩]
  | .alt a b => ⟨a.literal?, buildChoice backward (branchesOf backward a)⟩ :: branchesOf backward b
  | .repetition e min max _ =>
    [⟨none, buildRepetition (buildChoice backward (branchesOf backward e)) e.consumes min max⟩]

/-- The memory of the automaton of an expression.  Unless all matches are tied to the end it reads
    from, it begins with a loop over any bytes. -/
def measure (backward : Bool) (e : Expr) : Option Memory := do
  let anchored := if backward then e.atTextEnd else e.atTextStart
  let body := buildChoice backward (branchesOf backward e)
  let build : Build Unit := do
    let _ ← if anchored then addState else addStates 3 (edgeBytes + 2 * linkBytes)
    if backward then
      let f ← body
      let _ ← addState
      linkFrom f
    else
      let _ ← addState
      let f ← body
      let _ ← addStates 2 0
      linkFrom f
  let (_, m) ← build.run {}
  pure m

/-- Both automata of an expression stay within the limit. -/
def fits (e : Expr) : Bool := (measure false e).isSome && (measure true e).isSome

end Typings.Regex
