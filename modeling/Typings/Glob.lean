import Typings.Text

/-!
# Globs

A glob is a pattern for paths.  A star matches anything, a question mark one thing, two stars between
slashes any number of directories; brackets hold a class of characters and braces alternatives.

* `Glob.Token`: a part of a glob.
* `Glob.parse`: a glob from its text.
* `Glob.parseLenient`: the same, where a bracket that is never closed stands for itself.

Reading goes from left to right over a cursor that keeps the row of parts at hand and the braces that
are still open.  A range that runs backwards and braces or brackets that are not closed are faults,
which name what was wrong with the pattern.
-/

namespace Typings.Glob

/-- Why a text is no glob. -/
inductive Fault where
  | unclosedClass
  | invalidRange (first last : Char)
  | unopenedAlternates
  | unclosedAlternates
  | danglingEscape
  | invalidByteRange
  | tooDeep
deriving DecidableEq, Repr

/-- The fault in words. -/
def Fault.message : Fault → Text
  | .unclosedClass => "unclosed character class; missing ']'"
  | .invalidRange a b => "invalid range; '" ++ [a] ++ "' > '" ++ [b] ++ "'"
  | .unopenedAlternates => "unopened alternate group; missing opening brace"
  | .unclosedAlternates => "unclosed alternate group; missing closing brace"
  | .danglingEscape => "dangling '\\'"
  | .invalidByteRange => "invalid character class range"
  | .tooDeep => "exceeds the nesting limit"

/-- A part of a glob. -/
inductive Token where
  | literal (c : Char)
  | any
  | star
  /-- Two stars at the start: nothing, or anything up to a slash. -/
  | anyFront
  /-- Two stars between slashes: a slash, or anything between two. -/
  | anyMiddle
  /-- Two stars at the end: a slash and anything. -/
  | anyBack
  | charClass (negated : Bool) (ranges : List (Char × Char))
  | alternates (branches : List (List Token))
deriving Inhabited

/-! ## Reading -/

/-- The branches being read, innermost first: each open brace has the branches before the current
    one, and each branch holds its tokens last first. -/
structure Open where
  done : List (List Token)
  current : List Token

/-- What is left to read, the character before it, and the branches being read. -/
structure Cursor where
  rest : Text
  previous : Option Char
  /-- The tokens outside all braces when there are no inner ones. -/
  current : List Token
  /-- The branches around the current one. -/
  outer : List Open
  /-- The branches of the innermost brace that are done. -/
  done : List (List Token)
  /-- From here on an opening bracket stands for itself. -/
  plainBrackets : Bool

/-- One more token. -/
def Cursor.push (c : Cursor) (t : Token) : Cursor := { c with current := t :: c.current }

/-- The number of branches that are being held open, the outermost text included. -/
def Cursor.branches (c : Cursor) : Nat :=
  c.outer.foldl (fun n o => n + o.done.length + 1) (c.done.length + 1)

/-- Past one character. -/
def Cursor.bump (c : Cursor) : Cursor :=
  match c.rest with
  | [] => { c with previous := none }
  | x :: t => { c with rest := t, previous := some x }

/-- Two stars that are not a whole directory name. -/
def Cursor.twoStars (c : Cursor) : Cursor := (c.push .star).push .star

/-- The tokens for stars, of which the first has been read; `before` is the character before it. -/
def readStar (before : Option Char) (c : Cursor) : Cursor :=
  match c.rest with
  | '*' :: _ =>
    let c := c.bump
    if c.current.isEmpty then
      match c.rest with
      | [] => c.push .anyFront
      | '/' :: _ => (c.push .anyFront).bump
      | _ => c.twoStars
    else if before != some '/' &&
        (c.branches ≤ 1 || (before != some ',' && before != some '\x7b')) then c.twoStars
    else
      let suffix : Option (Bool × Cursor) := match c.rest with
        | [] => some (true, c)
        | '/' :: _ => some (false, c.bump)
        | x :: _ =>
          if (x == ',' || x == '\x7d') && c.branches ≥ 2 then some (true, c) else none
      match suffix with
      | none => c.twoStars
      | some (isSuffix, c) =>
        -- The slash before the stars is part of what they match.
        match c.current with
        | .anyFront :: _ => c
        | .anyBack :: _ => c
        | _ :: front =>
          { c with current := (if isSuffix then Token.anyBack else Token.anyMiddle) :: front }
        | [] => c
  | _ => c.push .star

/-- The ranges of a class up to its closing bracket, and the rest.  `ranges` are those so far, last
    first; `first` says that nothing has been read and `waiting` that a hyphen waits for its end. -/
def readRanges (ranges : List (Char × Char)) (first waiting : Bool) :
    Text → Except Fault (List (Char × Char) × Text)
  | [] => .error .unclosedClass
  | c :: t =>
    if c == ']' && !first then
      .ok ((if waiting then ('-', '-') :: ranges else ranges).reverse, t)
    else if c == '-' && !first && !waiting then readRanges ranges false true t
    else if waiting then
      match ranges with
      | (a, _) :: more =>
        if c < a then .error (.invalidRange a c) else readRanges ((a, c) :: more) false false t
      | [] => readRanges [(c, c)] false false t
    else readRanges ((c, c) :: ranges) false false t

/-- A class after its opening bracket.  A lenient reader takes a bracket that is never closed, and all
    that follow, for themselves. -/
def readClass (lenient : Bool) (c : Cursor) : Except Fault Cursor :=
  let (negated, body) := match c.rest with
    | '!' :: t => (true, t)
    | '^' :: t => (true, t)
    | t => (false, t)
  match readRanges [] true false body with
  | .ok (ranges, after) =>
    .ok { c.push (.charClass negated ranges) with rest := after, previous := some ']' }
  | .error f =>
    if lenient && f = .unclosedClass then .ok { c.push (.literal '[') with plainBrackets := true }
    else .error f

/-- One step of reading. -/
def readToken (lenient : Bool) (c : Cursor) : Except Fault Cursor :=
  match c.rest with
  | [] => .ok c
  | x :: _ =>
    let before := c.previous
    let c := c.bump
    if x == '?' then .ok (c.push .any)
    else if x == '*' then .ok (readStar before c)
    else if x == '[' && !c.plainBrackets then readClass lenient c
    else if x == '\x7b' then
      .ok { c with current := [], done := [], outer := ⟨c.done, c.current⟩ :: c.outer }
    else if x == '\x7d' then
      match c.outer with
      | [] => .error .unopenedAlternates
      | o :: outer =>
        let branches := (c.current :: c.done).reverse.map List.reverse
        .ok { c with
          current := .alternates branches :: o.current, done := o.done, outer := outer }
    else if x == ',' then
      match c.outer with
      | [] => .ok (c.push (.literal ','))
      | _ => .ok { c with current := [], done := c.current :: c.done }
    else if x == '\\' then
      match c.rest with
      | [] => .error .danglingEscape
      | y :: _ => .ok (c.bump.push (.literal y))
    else .ok (c.push (.literal x))

/-- Reads to the end; each step takes at least one character. -/
def readAll (lenient : Bool) : Nat → Cursor → Except Fault Cursor
  | 0, c => .ok c
  | fuel + 1, c =>
    if c.rest.isEmpty then .ok c else readToken lenient c >>= readAll lenient fuel

/-- The tokens of a text. -/
def read (lenient : Bool) (t : Text) : Except Fault (List Token) := do
  let c ← readAll lenient t.length ⟨t, none, [], [], [], false⟩
  if c.outer.isEmpty then return c.current.reverse else throw .unclosedAlternates

/-- A glob from its text. -/
def parse (t : Text) : Except Fault (List Token) := read false t

/-- A glob from its text, in which a bracket that is never closed stands for itself. -/
def parseLenient (t : Text) : Except Fault (List Token) := read true t

end Typings.Glob
