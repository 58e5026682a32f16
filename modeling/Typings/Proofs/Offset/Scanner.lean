import Typings.Import.Bindings
import Typings.Proofs.Offset.Slice

/-!
# `Scanner` — finding import sites by byte offsets

The scanner as it works on bytes: it keeps an offset, looks at the byte there and steps on, two bytes
after a backslash, be there one character or half of one.  Each step has a result only where every index
is in range and every text is cut between characters, and a loop has one only if each of its rounds moves
on inside the text; so a result says that nothing went wrong on the way, and that the loops ended.

* `loop`: a loop, round by round.
* `skipLine`, `skipBlock`, `skipString`, `skipTemplate`, `skipTrivia`: what is passed over.
* `wordAt`: the identifier at an offset.
* `parseImport`, `parseExport`, `parseFromClause`: the site after a keyword; `clauseRound` reads its clause.
* `keywordRound`, `scanRound`, `scanImports`: the sites of a text.
* `scanTypeReferences`: its inline type references.
-/

namespace Typings.Offset

open Import (Range SiteKind Keyword keyword?)

/-! ## Bytes -/

/-- The bytes of identifiers; every byte beyond ASCII counts. -/
def isIdentByte (b : UInt8) : Bool :=
  (byteOf '0' ≤ b && b ≤ byteOf '9') || (byteOf 'A' ≤ b && b ≤ byteOf 'Z') ||
    (byteOf 'a' ≤ b && b ≤ byteOf 'z') || b == byteOf '_' || b == byteOf '$' || 0x80 ≤ b

/-- The blank bytes. -/
def isBlankByte (b : UInt8) : Bool :=
  b == byteOf ' ' || b == byteOf '\t' || b == byteOf '\n' || b == byteOf '\r' || b == byteOf '\x0c'

/-- The bytes of quotes. -/
def isQuoteByte (b : UInt8) : Bool := b == byteOf '\'' || b == byteOf '"'

/-- A site as the ranges of its parts. -/
structure Mark where
  kind : SiteKind
  keyword : Keyword
  span : Range
  specifier : Range
  clause : Range
  typeOnly : Bool
deriving DecidableEq, Repr

/-- An inline type reference as the ranges of its parts. -/
structure TypeMark where
  span : Range
  specifier : Range
  member : Range
deriving DecidableEq, Repr

/-! ## Loops -/

/-- What a round of a loop comes to. -/
inductive Round (σ α : Type) where
  /-- The loop ends with a result. -/
  | stop (result : α)
  /-- The loop goes on from a state. -/
  | again (state : σ)

/-- A loop over a text of some size.  A round after which the loop goes on starts inside the text and ends
    further on; where one does not, the loop has no result. -/
def loop {σ α : Type} (size : Nat) (place : σ → Nat) (round : σ → Option (Round σ α)) (state : σ) :
    Option α :=
  match round state with
  | none => none
  | some (.stop result) => some result
  | some (.again next) =>
    if place state < place next ∧ place state < size then loop size place round next else none
termination_by size - place state
decreasing_by omega

section

variable {σ α : Type} {size : Nat} {place : σ → Nat} {round : σ → Option (Round σ α)} {state next : σ} {a : α}

theorem loop_stop (h : round state = some (.stop a)) : loop size place round state = some a := by
  rw [loop, h]

theorem loop_again (h : round state = some (.again next)) (hforward : place state < place next)
    (hinside : place state < size) : loop size place round state = loop size place round next := by
  rw [loop, h]
  exact if_pos ⟨hforward, hinside⟩

/-- Where a loop has a result, it has the same from further back, if the round there comes to the same. -/
theorem loop_back {back : σ} (h : loop size place round state = some a) (hround : round back = round state)
    (hle : place back ≤ place state) : loop size place round back = some a := by
  rw [loop] at h ⊢
  rw [hround]
  split at h
  · exact absurd h (by simp)
  · exact h
  · split at h
    next hguard =>
      rw [if_pos (by omega)]
      exact h
    · exact absurd h (by simp)

end

section

variable (t : Text)

/-- The character of ASCII is at the offset. -/
def isAt (offset : Nat) (c : Char) : Bool := byte? t offset == some (byteOf c)

/-! ## What is passed over -/

/-- To the line feed that ends a line comment. -/
def skipLine : Nat → Option Nat :=
  loop t.byteSize id fun offset =>
    match byte? t offset with
    | some b => if b == byteOf '\n' then some (.stop offset) else some (.again (offset + 1))
    | none => some (.stop offset)

/-- Past the mark that closes a block comment. -/
def skipBlock : Nat → Option Nat :=
  loop t.byteSize id fun offset =>
    match byte? t offset with
    | some b =>
      if b == byteOf '*' && isAt t (offset + 1) '/' then some (.stop (offset + 2))
      else some (.again (offset + 1))
    | none => some (.stop offset)

/-- Past a string whose body starts at `start`, with the range of the body; none when it is not closed on
    its line. -/
def skipString (quote : UInt8) (start : Nat) : Nat → Option (Nat × Option Range) :=
  loop t.byteSize id fun offset =>
    match byte? t offset with
    | some b =>
      if b == byteOf '\\' then some (.again (offset + 2))
      else if b == byteOf '\n' then some (.stop (offset, none))
      else if b == quote then some (.stop (offset + 1, some ⟨start, offset⟩))
      else some (.again (offset + 1))
    | none => some (.stop (min offset t.byteSize, none))

/-- Past a template literal. -/
def skipTemplate : Nat → Option Nat :=
  loop t.byteSize id fun offset =>
    match byte? t offset with
    | some b =>
      if b == byteOf '\\' then some (.again (offset + 2))
      else if b == byteOf Import.templateMark then some (.stop (offset + 1))
      else some (.again (offset + 1))
    | none => some (.stop (min offset t.byteSize))

/-- Past blanks. -/
def skipBlanks : Nat → Option Nat :=
  loop t.byteSize id fun offset =>
    match byte? t offset with
    | some b => if isBlankByte b then some (.again (offset + 1)) else some (.stop offset)
    | none => some (.stop offset)

/-- Past blanks and comments. -/
def skipTrivia : Nat → Option Nat :=
  loop t.byteSize id fun offset =>
    match byte? t offset with
    | some b =>
      if isBlankByte b then some (.again (offset + 1))
      else if b == byteOf '/' && isAt t (offset + 1) '/' then (skipLine t offset).map .again
      else if b == byteOf '/' && isAt t (offset + 1) '*' then (skipBlock t (offset + 2)).map .again
      else some (.stop offset)
    | none => some (.stop offset)

/-- How many bytes of an identifier are at the offset, which may be the end of the text but not past it. -/
def identSize? (offset : Nat) : Option Nat :=
  if offset ≤ t.byteSize then some ((t.bytes.drop offset).takeWhile isIdentByte).length else none

/-- The identifier at the offset. -/
def wordAt (offset : Nat) : Option Text := do
  let size ← identSize? t (min offset t.byteSize)
  slice? t ⟨offset, offset + size⟩

/-- Past the string at the offset, with the range of its body; none when there is no closed string. -/
def parseQuoted (offset : Nat) : Option (Nat × Option Range) :=
  match byte? t offset with
  | some b => if isQuoteByte b then skipString t b (offset + 1) (offset + 1) else some (offset, none)
  | none => some (offset, none)

/-! ## The site after a keyword -/

/-- A dynamic import after its opening parenthesis. -/
def parseDynamic (start offset : Nat) : Option (Option Mark) := do
  match ← parseQuoted t (← skipTrivia t offset) with
  | (_, none) => return none
  | (stop, some specifier) =>
    let close ← skipTrivia t stop
    if isAt t close ')' then
      return some
        { kind := .dynamic, keyword := .importing, span := ⟨start, close + 1⟩, specifier := specifier,
          clause := ⟨specifier.start, specifier.start⟩, typeOnly := false }
    else return none

/-- Past a semicolon, and past a line ending. -/
def statementStop (offset : Nat) : Nat :=
  let offset := if isAt t offset ';' then offset + 1 else offset
  if isAt t offset '\r' && isAt t (offset + 1) '\n' then offset + 2
  else if isAt t offset '\n' then offset + 1
  else offset

/-- An import of a module for its effects alone. -/
def parseSideEffect (start offset : Nat) : Option (Option Mark) := do
  match ← parseQuoted t offset with
  | (_, none) => return none
  | (stop, some specifier) =>
    return some
      { kind := .sideEffect, keyword := .importing, span := ⟨start, statementStop t stop⟩
        specifier := specifier, clause := ⟨specifier.start, specifier.start⟩, typeOnly := false }

/-- After `from` another binding follows, and no string. -/
def bindingFollows (offset : Nat) : Option Bool := do
  let ahead ← skipBlanks t (offset + 4)
  return !(isAt t ahead '\'' || isAt t ahead '"')

/-- Whether there is a `type` modifier, and the offset after it. -/
def typeModifier (offset : Nat) : Option (Bool × Nat) := do
  if (← wordAt t offset) == "type" then
    let after ← skipTrivia t (offset + 4)
    if (← wordAt t after) == "from" then
      if ← bindingFollows t after then return (true, after) else return (false, offset)
    else return (true, after)
  else return (false, offset)

/-- How far a clause has been read. -/
structure ClauseState where
  /-- How many braces are open. -/
  depth : Nat
  /-- There was a binding. -/
  seen : Bool
  /-- Where the clause stops, as far as it was read. -/
  stop : Nat
  offset : Nat

/-- A round of reading a clause: a brace, a comma, a star or a word. -/
def clauseRound (s : ClauseState) : Option (Round ClauseState (Option (Nat × Nat))) := do
  let offset ← skipTrivia t s.offset
  match byte? t offset with
  | none => return .stop none
  | some b =>
    if b == byteOf '\x7b' then return .again { s with depth := s.depth + 1, offset := offset + 1 }
    else if b == byteOf '\x7d' then
      match s.depth with
      | 0 => return .stop none
      | depth + 1 => return .again ⟨depth, true, offset + 1, offset + 1⟩
    else if b == byteOf ',' || b == byteOf '*' then
      return .again ⟨s.depth, s.seen || b == byteOf '*', offset + 1, offset + 1⟩
    else if isIdentByte b then
      let word ← wordAt t offset
      if word == "from" && s.depth == 0 && s.seen then return .stop (some (s.stop, offset + 4))
      else return .again ⟨s.depth, true, offset + word.byteSize, offset + word.byteSize⟩
    else return .stop none

/-- The offset where a clause stops, and the offset after the `from` behind it. -/
def readClause : ClauseState → Option (Option (Nat × Nat)) :=
  loop t.byteSize ClauseState.offset (clauseRound t)

/-- A static site after its keyword. -/
def parseFromClause (start : Nat) (keyword : Keyword) (offset : Nat) : Option (Option Mark) := do
  let (typeOnly, offset) ← typeModifier t offset
  match ← readClause t ⟨0, false, offset, offset⟩ with
  | none => return none
  | some (stop, after) =>
    match ← parseQuoted t (← skipTrivia t after) with
    | (_, none) => return none
    | (after, some specifier) =>
      return some
        { kind := .static, keyword := keyword, span := ⟨start, after⟩, specifier := specifier,
          clause := ⟨offset, stop⟩, typeOnly := typeOnly }

/-- The site that starts with the `import` at an offset. -/
def parseImport (start : Nat) : Option (Option Mark) := do
  let offset ← skipTrivia t (start + 6)
  match byte? t offset with
  | none => return none
  | some b =>
    if b == byteOf '(' then parseDynamic t start (offset + 1)
    else if isQuoteByte b then parseSideEffect t start offset
    else if isIdentByte b || b == byteOf '\x7b' || b == byteOf '*' then
      parseFromClause t start .importing offset
    else return none

/-- The offset where a clause would start: behind a `type` and its blanks, if there is one. -/
def clauseStart (offset : Nat) : Option Nat := do
  if (← wordAt t offset) == "type" then skipBlanks t (offset + 4) else return offset

/-- The site that starts with the `export` at an offset. -/
def parseExport (start : Nat) : Option (Option Mark) := do
  let offset ← skipTrivia t (start + 6)
  let ahead ← clauseStart t offset
  if isAt t ahead '\x7b' || isAt t ahead '*' then parseFromClause t start .exporting offset
  else return none

/-- The site that starts with the keyword at an offset. -/
def parseAfter (k : Keyword) (start : Nat) : Option (Option Mark) :=
  match k with
  | .importing => parseImport t start
  | .exporting => parseExport t start

/-! ## Scanning -/

/-- A dot is directly before the offset. -/
def afterDot : Nat → Option Bool
  | 0 => some false
  | offset + 1 => (byte? t offset).map (· == byteOf '.')

/-- A round of looking for a keyword: a comment, a literal, an identifier or another byte. -/
def keywordRound (offset : Nat) : Option (Round Nat (Option (Keyword × Nat))) :=
  match byte? t offset with
  | none => some (.stop none)
  | some b =>
    if b == byteOf '/' && isAt t (offset + 1) '/' then (skipLine t offset).map .again
    else if b == byteOf '/' && isAt t (offset + 1) '*' then (skipBlock t (offset + 2)).map .again
    else if isQuoteByte b then (skipString t b (offset + 1) (offset + 1)).map fun r => .again r.1
    else if b == byteOf Import.templateMark then (skipTemplate t (offset + 1)).map .again
    else if isIdentByte b then do
      let size ← identSize? t offset
      if ← afterDot t offset then return .again (offset + size)
      else
        match keyword? (← slice? t ⟨offset, offset + size⟩) with
        | some k => return .stop (some (k, offset))
        | none => return .again (offset + size)
    else some (.again (offset + 1))

/-- The next keyword that is no property, outside comments and literals, with its offset. -/
def nextKeyword : Nat → Option (Option (Keyword × Nat)) := loop t.byteSize id (keywordRound t)

/-- A round of scanning, with the sites found so far.  What does not read as a site is left. -/
def scanRound (s : List Mark × Nat) : Option (Round (List Mark × Nat) (List Mark)) := do
  match ← nextKeyword t s.2 with
  | none => return .stop s.1
  | some (k, start) =>
    match ← parseAfter t k start with
    | some m => return .again (s.1 ++ [m], m.span.stop)
    | none => return .again (s.1, start + k.text.byteSize)

/-- The sites of a text. -/
def scanImports : Option (List Mark) := loop t.byteSize Prod.snd (scanRound t) ([], 0)

/-- The type that is named through a dynamic import. -/
def typeReference (m : Mark) : Option (Option TypeMark) := do
  if m.kind == .dynamic && isAt t m.span.stop '.' then
    let size ← identSize? t (m.span.stop + 1)
    if size == 0 then return none
    else
      let stop := m.span.stop + 1 + size
      return some
        { span := ⟨m.span.start, stop⟩, specifier := m.specifier, member := ⟨m.span.stop + 1, stop⟩ }
  else return none

/-- The types that are named through some sites. -/
def typeReferences : List Mark → Option (List TypeMark)
  | [] => return []
  | m :: ms => do
    let reference ← typeReference t m
    let more ← typeReferences ms
    return reference.toList ++ more

/-- The types that are named through the dynamic imports of a text. -/
def scanTypeReferences : Option (List TypeMark) := do typeReferences t (← scanImports t)

end

end Typings.Offset
