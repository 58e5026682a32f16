import Typings.Glob

/-!
# Matching globs

A glob is matched against the whole of a path, byte by byte.  A matcher walks over its pieces and
carries along all places of the path that a match can have come to, so it takes each piece once.

* `Piece`: a part of a glob over bytes.
* `rowPieces`: the pieces of a glob; a class may turn out to make no sense only here, because its
  characters are taken byte by byte.
* `Places`, `step`, `spread`: the places that a match can have come to.
* `Piece.lead`, `leadAny`, `leadAll`: where a piece, any of some branches and pieces in a row lead to.
* `Matcher`: a glob ready to be matched, `Matcher.ofTokens` where stars match slashes too and
  `Matcher.withinNames` where they do not.
-/

namespace Typings.Glob

/-- A part of a glob, over bytes. -/
inductive Piece where
  | byte (b : Nat)
  /-- One byte. -/
  | any
  /-- Any bytes. -/
  | star
  /-- Any bytes but slashes. -/
  | segment
  | anyFront
  | anyMiddle
  | anyBack
  /-- A byte in, or outside of, some ranges. -/
  | bytes (negated : Bool) (ranges : List (Nat × Nat))
  | choice (branches : List (List Piece))
deriving Inhabited

/-- The byte of a slash. -/
def slash : Nat := '/'.toNat

/-- The bytes of a text in UTF-8. -/
def utf8 (t : Text) : List Nat := t.bytes.map UInt8.toNat

/-! ## From tokens to pieces -/

/-- The byte ranges of a range of characters: between the last byte of the first and the first byte
    of the last; their other bytes count one by one. -/
def byteRanges (first last : Char) : Except Fault (List (Nat × Nat)) :=
  if first == last then .ok ((utf8 [first]).map fun b => (b, b))
  else
    match (utf8 [first]).reverse, utf8 [last] with
    | a :: front, b :: back =>
      if b < a then .error .invalidByteRange
      else .ok ((front.reverse.map fun x => (x, x)) ++ (a, b) :: back.map fun x => (x, x))
    | _, _ => .ok []

mutual

/-- The pieces of one token; braces without any branch have none.  `within` tells that stars and
    question marks match no slashes. -/
def Token.pieces (within : Bool) : Token → Except Fault (List Piece)
  | .literal c => .ok ((utf8 [c]).map .byte)
  | .any => .ok [if within then .bytes true [(slash, slash)] else .any]
  | .star => .ok [if within then .segment else .star]
  | .anyFront => .ok [.anyFront]
  | .anyMiddle => .ok [.anyMiddle]
  | .anyBack => .ok [.anyBack]
  | .charClass negated ranges => do
    let rs ← ranges.mapM fun (a, b) => byteRanges a b
    return [.bytes negated rs.flatten]
  | .alternates branches => do
    let rows ← branchPieces within branches
    return if rows.isEmpty then [] else [.choice rows]

/-- The pieces of some branches; empty branches do not count. -/
def branchPieces (within : Bool) : List (List Token) → Except Fault (List (List Piece))
  | [] => .ok []
  | branch :: rest => do
    let row ← rowPieces within branch
    let rows ← branchPieces within rest
    return if row.isEmpty then rows else row :: rows

/-- The pieces of tokens in a row. -/
def rowPieces (within : Bool) : List Token → Except Fault (List Piece)
  | [] => .ok []
  | t :: rest => do return (← t.pieces within) ++ (← rowPieces within rest)

end

/-! ## Depth -/

/-- How deep a glob may nest. -/
def maxDepth : Nat := 250

/-- How many items stand in the place of a piece. -/
def Piece.width : Piece → Nat
  | .anyBack => 2
  | _ => 1

mutual

/-- How deep a piece nests: its braces, the branches between them, rows of more than one item, and
    what each item repeats or lists. -/
def Piece.depth : Piece → Nat
  | .byte _ => 0
  | .any => 0
  | .star => 1
  | .segment => 2
  | .anyFront => 4
  | .anyMiddle => 4
  | .anyBack => 1
  | .bytes _ ranges => if ranges.length = 1 then 1 else 2
  | .choice rows => (if rows.length = 1 then 1 else 2) + branchDepth rows

/-- How deep the deepest of some branches nests. -/
def branchDepth : List (List Piece) → Nat
  | [] => 0
  | row :: rest =>
    let items := row.foldl (fun n p => n + p.width) 0
    max ((if items = 1 then 0 else 1) + rowDepth row) (branchDepth rest)

/-- How deep the deepest of pieces in a row nests. -/
def rowDepth : List Piece → Nat
  | [] => 0
  | p :: rest => max p.depth (rowDepth rest)

end

/-! ## Places -/

/-- The places of a text, from its start to its end: which of them a match can have come to. -/
abbrev Places := List Bool

/-- Only the start. -/
def Places.start (text : List Nat) : Places := true :: text.map fun _ => false

/-- The places of either. -/
def Places.or (a b : Places) : Places := List.zipWith (· || ·) a b

/-- One byte further, if it is one that `reads` takes. -/
def step (reads : Nat → Bool) (text : List Nat) (places : Places) : Places :=
  false :: List.zipWith (fun b here => here && reads b) text places

/-- Any number of bytes further, as long as `reads` takes them; `carried` tells that the byte before
    the first place was taken. -/
def spread (reads : Nat → Bool) : (carried : Bool) → List Nat → Places → Places
  | _, _, [] => []
  | carried, [], here :: _ => [carried || here]
  | carried, b :: text, here :: rest =>
    let now := carried || here
    now :: spread reads (now && reads b) text rest

/-- Anywhere further. -/
def anywhere (text : List Nat) (places : Places) : Places :=
  spread (fun _ => true) false text places

/-- Past a slash. -/
def pastSlash (text : List Nat) (places : Places) : Places := step (· == slash) text places

/-- Here, or past any slash further on. -/
def pastDirs (text : List Nat) (places : Places) : Places :=
  places.or (pastSlash text (anywhere text places))

mutual

/-- The places that a piece leads to. -/
def Piece.lead (text : List Nat) : Piece → Places → Places
  | .byte b, ps => step (· == b) text ps
  | .any, ps => step (fun _ => true) text ps
  | .star, ps => anywhere text ps
  | .segment, ps => spread (· != slash) false text ps
  | .anyFront, ps => pastDirs text ps
  | .anyMiddle, ps => pastDirs text (pastSlash text ps)
  | .anyBack, ps => anywhere text (pastSlash text ps)
  | .bytes negated ranges, ps =>
    step (fun c => (ranges.any fun (a, b) => a ≤ c && c ≤ b) != negated) text ps
  | .choice rows, ps => leadAny text rows ps

/-- The places that any of some branches leads to. -/
def leadAny (text : List Nat) : List (List Piece) → Places → Places
  | [], ps => ps.map fun _ => false
  | row :: rest, ps => (leadAll text row ps).or (leadAny text rest ps)

/-- The places that pieces in a row lead to. -/
def leadAll (text : List Nat) : List Piece → Places → Places
  | [], ps => ps
  | p :: rest, ps => leadAll text rest (p.lead text ps)

end

/-! ## Matchers -/

/-- A glob ready to be matched. -/
structure Matcher where
  pieces : List Piece

namespace Matcher

/-- The matcher of a glob that does not nest too deep; two stars alone match everything. -/
def build (within : Bool) (tokens : List Token) : Except Fault Matcher :=
  match tokens with
  | [.anyFront] => .ok ⟨[.star]⟩
  | _ => do
    let row ← rowPieces within tokens
    if 1 + rowDepth row ≤ maxDepth then return ⟨row⟩ else throw .tooDeep

/-- The matcher of a glob of which stars and question marks match slashes too. -/
def ofTokens (tokens : List Token) : Except Fault Matcher := build false tokens

/-- The matcher of a glob of which stars and question marks match no slashes. -/
def withinNames (tokens : List Token) : Except Fault Matcher := build true tokens

/-- The glob matches the whole text. -/
def isMatch (m : Matcher) (t : Text) : Bool :=
  let text := utf8 t
  (leadAll text m.pieces (Places.start text)).getLast? == some true

end Matcher

end Typings.Glob
