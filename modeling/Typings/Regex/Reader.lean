import Typings.Regex.Syntax
import Typings.Text.Digit

/-!
# Reading regular expressions

The notation has groups, alternatives, classes with set operations, greedy and lazy repetition, and
flags that hold up to the end of their group.  There is no look-around and no reference back to a
group.  Under the flag `x`, white space and comments may stand between the parts, and also inside
escapes and counts.

* `readTree`: the tree of a text, with its groups.

The reader keeps the groups that have been opened, each with its index and perhaps a name, and refuses
a name that is used twice.  It fails at the first fault and says which it was; how deep groups and
classes nest is limited.
-/

namespace Typings.Regex

open Unicode (PropertyQuery)

/-- What is left to read, whether white space is skipped, and the groups so far. -/
structure Cursor where
  rest : Text
  spaced : Bool := false
  groups : Nat := 0
  names : List (Text × Nat) := []

/-- A step of reading. -/
abbrev Read := StateT Cursor (Except Fault)

/-- Stops with a fault. -/
def fault {α : Type} (f : Fault) : Read α := throw f

/-- What is left to read. -/
def rest : Read Text := do return (← get).rest

/-- Goes on with another text. -/
def goTo (t : Text) : Read Unit := modify fun c => { c with rest := t }

/-! ## White space between the parts -/

/-- Without white space and comments in front. -/
def skipSpaced : Text → Text
  | [] => []
  | '#' :: t => inComment t
  | c :: t => if Text.isBlank c then skipSpaced t else c :: t
where
  /-- After the line of a comment. -/
  inComment : Text → Text
    | [] => []
    | '\n' :: t => skipSpaced t
    | _ :: t => inComment t

/-- A text without what is skipped in front. -/
def gap (spaced : Bool) (t : Text) : Text := if spaced then skipSpaced t else t

/-- The next text to look at. -/
def skip : Read Text := do
  let c ← get
  let t := gap c.spaced c.rest
  goTo t
  return t

/-- Goes on with a text after what is skipped in front of it. -/
def goPast (t : Text) : Read Unit := do
  let c ← get
  goTo (gap c.spaced t)

/-- The character to come after a hyphen, past white space and the sign of a comment. -/
def peekPast (spaced : Bool) (t : Text) : Option Char :=
  if spaced then
    let u := t.dropWhile Text.isBlank
    let u := match u with
      | '#' :: v => v.dropWhile Text.isBlank
      | _ => u
    u.head?.or t.head?
  else t.head?

/-! ## Escapes -/

/-- A digit of a code. -/
def isHexDigit (c : Char) : Bool := (Text.digitValue? 16 c).isSome

/-- Some hexadecimal digits, and the rest. -/
def takeHex (spaced : Bool) : Nat → Text → Option (Text × Text)
  | 0, t => some ([], t)
  | _ + 1, [] => none
  | n + 1, c :: t =>
    if isHexDigit c then do
      let (digits, after) ← takeHex spaced n (gap spaced t)
      pure (c :: digits, after)
    else none

/-- What stands before a closing brace, without what is skipped, and the rest. -/
def takeBraced (spaced : Bool) : Nat → Text → Option (Text × Text)
  | 0, _ => none
  | _ + 1, [] => none
  | n + 1, c :: t =>
    if c == '\x7d' then some ([], t)
    else do
      let (body, after) ← takeBraced spaced n (gap spaced t)
      pure (c :: body, after)

/-- A character by its code: in braces, or with `count` digits. -/
def readHex (count : Nat) : Read Literal := do
  let c ← get
  match ← skip with
  | '\x7b' :: t =>
    match takeBraced c.spaced (t.length + 1) (gap c.spaced t) with
    | some (digits, after) =>
      match Text.charOfCode? digits with
      | some d =>
        goPast after
        return ⟨d, false⟩
      | none => fault .badEscape
    | none => fault .badEscape
  | t =>
    match takeHex c.spaced count t with
    | some (digits, after) =>
      match Text.charOfCode? digits with
      | some d =>
        goTo after
        return ⟨d, count == 2⟩
      | none => fault .badEscape
    | none => fault .badEscape

/-- The characters with a meaning of their own. -/
def isMeta (c : Char) : Bool := ("\\.+*?()|[]\x7b\x7d^$#&-~" : Text).contains c

/-- The characters that stand for themselves after a backslash. -/
def isEscapable (c : Char) : Bool :=
  isMeta c || (c.toNat < 0x80 && !c.isAlphanum && c != '<' && c != '>')

/-- The characters written with a letter. -/
def controlEscape? : Char → Option Char
  | 'a' => some '\x07'
  | 'f' => some '\x0c'
  | 't' => some '\t'
  | 'n' => some '\n'
  | 'r' => some '\r'
  | 'v' => some '\x0b'
  | _ => none

/-- The classes written with a letter; a capital negates. -/
def letterClass? : Char → Option (LetterClass × Bool)
  | 'd' => some (.digit, false)
  | 's' => some (.space, false)
  | 'w' => some (.word, false)
  | 'D' => some (.digit, true)
  | 'S' => some (.space, true)
  | 'W' => some (.word, true)
  | _ => none

/-- The question between the braces of a property.  The sign that joins a kind and a value does not
    matter. -/
def propertyQuery (body : Text) : PropertyQuery :=
  match Text.cutAt? "!=" body with
  | some (kind, value) => .value kind value
  | none =>
    match body.cutFirst? ':' with
    | some (kind, value) => .value kind value
    | none =>
      match body.cutFirst? '=' with
      | some (kind, value) => .value kind value
      | none => .name body

/-- A property, after its letter. -/
def readProperty : Read PropertyQuery := do
  let c ← get
  match ← skip with
  | [] => fault .badEscape
  | '\x7b' :: t =>
    match takeBraced c.spaced (t.length + 1) (gap c.spaced t) with
    | none => fault .badEscape
    | some (body, after) =>
      goTo after
      return propertyQuery body
  | d :: t =>
    if d == '\\' then fault .badEscape
    else
      goPast t
      return .name [d]

/-- What a backslash and what follows stand for. -/
inductive Escape where
  | literal (l : Literal)
  | atom (a : ClassAtom)
  | assertion (a : Assertion)

/-- The condition named in braces after `\b`. -/
def boundaryName? (name : Text) : Option Assertion :=
  if name == "start" then some .wordStart
  else if name == "end" then some .wordEnd
  else if name == "start-half" then some .wordStartHalf
  else if name == "end-half" then some .wordEndHalf
  else none

/-- The characters of the names of conditions. -/
def isBoundaryChar (c : Char) : Bool := c.isAlpha || c == '-'

/-- The name at the front of a text, without what is skipped, and the rest. -/
def takeBoundaryName (spaced : Bool) : Nat → Text → Text × Text
  | 0, t => ([], t)
  | _ + 1, [] => ([], [])
  | n + 1, c :: t =>
    if isBoundaryChar c then
      let (name, after) := takeBoundaryName spaced n (gap spaced t)
      (c :: name, after)
    else ([], c :: t)

/-- The word boundary, perhaps with a name in braces; other braces count repetitions. -/
def readBoundary : Read Assertion := do
  let c ← get
  match c.rest with
  | '\x7b' :: t =>
    let t := gap c.spaced t
    if t.isEmpty then fault .badEscape
    else if !t.head?.any isBoundaryChar then return .boundary
    else match takeBoundaryName c.spaced (t.length + 1) t with
      | (name, '\x7d' :: after) =>
        match boundaryName? name with
        | some a =>
          goTo after
          return a
        | none => fault .badEscape
      | _ => fault .badEscape
  | _ => return .boundary

/-- An escape, after its backslash. -/
def readEscape : Read Escape := do
  match ← rest with
  | [] => fault .badEscape
  | c :: after =>
    goTo after
    if c.isDigit then fault .backreference
    else if c == 'x' then return .literal (← readHex 2)
    else if c == 'u' then return .literal (← readHex 4)
    else if c == 'U' then return .literal (← readHex 8)
    else if c == 'p' then return .atom (.property (← readProperty) false)
    else if c == 'P' then return .atom (.property (← readProperty) true)
    else if isEscapable c then return .literal ⟨c, false⟩
    else match letterClass? c, controlEscape? c with
      | some (l, negated), _ => return .atom (.letter l negated)
      | none, some d => return .literal ⟨d, false⟩
      | none, none =>
        if c == 'A' then return .assertion .textStart
        else if c == 'z' then return .assertion .textEnd
        else if c == 'b' then return .assertion (← readBoundary)
        else if c == 'B' then return .assertion .noBoundary
        else if c == '<' then return .assertion .wordStart
        else if c == '>' then return .assertion .wordEnd
        else fault .badEscape

/-! ## Classes -/

/-- An ASCII class such as `[:alpha:]` at the front of a text, and the rest. -/
def asciiClass? (t : Text) : Option (ClassAtom × Text) := do
  let body ← List.isPrefixOf? "[:" t
  let (negated, body) := match body with
    | '^' :: b => (true, b)
    | b => (false, b)
  let (name, after) ← Text.cutFirst? ':' body
  let after ← List.isPrefixOf? "]" after
  let c ← AsciiClass.ofName? name
  pure (.ascii c negated, after)

/-- An item of a class: a character, or a class without brackets. -/
def readItem : Read ClassAtom := do
  match ← rest with
  | [] => fault .unclosedClass
  | '\\' :: after =>
    goTo after
    match ← readEscape with
    | .literal l => return .literal l
    | .atom a => return a
    | .assertion _ => fault .badClassEscape
  | c :: after =>
    goTo after
    return .literal ⟨c, false⟩

/-- An item or a range of items. -/
def readRange : Read ClassAtom := do
  let first ← readItem
  let spaced := (← get).spaced
  match ← skip with
  | [] => fault .unclosedClass
  | '-' :: t =>
    if (peekPast spaced t).any fun c => c == ']' || c == '-' then return first
    else
      goPast t
      match first, ← readItem with
      | .literal a, .literal b =>
        if a.char ≤ b.char then return .range a b else fault .badClassRange
      | _, _ => fault .badClassRange
  | _ => return first

/-- The operation at the front of a text, and the rest. -/
def setOp? : Text → Option (SetOp × Text)
  | '&' :: '&' :: t => some (.inter, t)
  | '-' :: '-' :: t => some (.diff, t)
  | '~' :: '~' :: t => some (.symmDiff, t)
  | _ => none

/-- A character in a class. -/
def classChar (c : Char) : ClassTree := .atom (.literal ⟨c, false⟩)

/-- The hyphens that open a class stand for themselves. -/
def readHyphens (acc : ClassTree) : Nat → Read ClassTree
  | 0 => return acc
  | fuel + 1 => do
    match ← skip with
    | '-' :: t =>
      goPast t
      readHyphens (acc.push (classChar '-')) fuel
    | _ => return acc

/-- What opens a class, after its bracket: a sign of negation, then hyphens or a closing bracket that
    stand for themselves. -/
def readClassOpening : Read (Bool × ClassTree) := do
  let negated ← match ← skip with
    | '^' :: t =>
      goPast t
      pure true
    | _ => pure false
  match ← skip with
  | ']' :: t =>
    goPast t
    return (negated, classChar ']')
  | t => return (negated, ← readHyphens .none t.length)

mutual

/-- A class after its opening bracket, up to and with its closing one. -/
def readClass : Nat → Read (Bool × ClassTree)
  | 0 => fault .tooDeep
  | fuel + 1 => do
    let (negated, start) ← readClassOpening
    return (negated, ← readItems none start fuel)

/-- The items of a class, joined to what came before by an operation. -/
def readItems (before : Option (SetOp × ClassTree)) (items : ClassTree) : Nat → Read ClassTree
  | 0 => fault .tooDeep
  | fuel + 1 => do
    let joined := match before with
      | none => items
      | some (o, a) => .op o a items
    let t ← skip
    match setOp? t with
    | some (o, after) =>
      goTo after
      readItems (some (o, joined)) .none fuel
    | none =>
      match t with
      | [] => fault .unclosedClass
      | ']' :: after =>
        goTo after
        return joined
      | '[' :: after =>
        match asciiClass? t with
        | some (a, after) =>
          goTo after
          readItems before (items.push (.atom a)) fuel
        | none =>
          goTo after
          let (negated, body) ← readClass fuel
          readItems before (items.push (.bracket negated body)) fuel
      | _ =>
        let a ← readRange
        readItems before (items.push (.atom a)) fuel

end

/-! ## Repetition -/

/-- Decimal digits in front of a text, without what is skipped, and the rest. -/
def takeDigits (spaced : Bool) : Nat → Text → Text × Text
  | 0, t => ([], t)
  | _ + 1, [] => ([], [])
  | n + 1, c :: t =>
    if c.isDigit then
      let (digits, after) := takeDigits spaced n (gap spaced t)
      (c :: digits, after)
    else ([], c :: t)

/-- A number of repetitions, with blanks around it, and the rest. -/
def readCount? (spaced : Bool) (t : Text) : Option Nat × Text :=
  let t := t.dropWhile Text.isBlank
  let (digits, after) := takeDigits spaced (t.length + 1) t
  let after := match after with
    | c :: u => if Text.isBlank c then gap spaced ((c :: u).dropWhile Text.isBlank) else after
    | [] => []
  ((Text.number? 10 digits).filter (· < Nat.pow 2 32), after)

/-- The counts in braces, after the opening one, and the rest after the closing one. -/
def readCounts (t : Text) : Read (Nat × Option Nat) := do
  let spaced := (← get).spaced
  match readCount? spaced (gap spaced t) with
  | (some n, '\x7d' :: after) =>
    goPast after
    return (n, some n)
  | (some n, ',' :: after) =>
    match gap spaced after with
    | '\x7d' :: after =>
      goPast after
      return (n, none)
    | after =>
      match readCount? spaced after with
      | (some m, '\x7d' :: after) =>
        if m < n then fault .badCount
        goPast after
        return (n, some m)
      | _ => fault .badCount
  | _ => fault .badCount

/-- A question mark after a repetition makes it lazy. -/
def readGreedy : Read Bool := do
  match ← rest with
  | '?' :: after =>
    goTo after
    return false
  | _ => return true

/-! ## Groups -/

/-- Flags up to a colon or a closing parenthesis: no letter twice, one hyphen, and that not last. -/
def readFlags (value : Bool) (seen : Text) : Text → Except Fault (FlagChange × Char × Text)
  | [] => .error .badFlag
  | c :: t =>
    if c == ':' || c == ')' then
      if seen.head? == some '-' then .error .badFlag
      else if c == ')' && seen.isEmpty then .error .nothingToRepeat
      else .ok ([], c, t)
    else if seen.contains c then .error .badFlag
    else if c == '-' then readFlags false ('-' :: seen) t
    else match Flag.ofChar? c with
      | some flag => do
        let (change, stop, after) ← readFlags value (c :: seen) t
        .ok ((flag, value) :: change, stop, after)
      | none => .error .badFlag

/-- The characters of group names. -/
def isNameChar (first : Bool) (c : Char) : Bool :=
  c == '_' ||
    if first then Unicode.isAlphabetic c
    else c == '.' || c == '[' || c == ']' || Unicode.isAlphanumeric c

/-- The name of a group, up to and with its closing bracket. -/
def readName : Read Text := do
  match Text.cutFirst? '>' (← rest) with
  | none => fault .badGroupName
  | some (name, after) =>
    match name with
    | [] => fault .badGroupName
    | c :: more =>
      if isNameChar true c && more.all (isNameChar false) then
        goTo after
        return name
      else fault .badGroupName

/-- The index of a new group. -/
def newGroup : Read Nat := do
  let c ← get
  set { c with groups := c.groups + 1 }
  return c.groups + 1

/-- The index of a new group with a name. -/
def newNamedGroup : Read Nat := do
  let index ← newGroup
  let name ← readName
  let c ← get
  if c.names.any (·.1 == name) then fault .repeatedGroupName
  set { c with names := c.names ++ [(name, index)] }
  return index

/-- What an opening parenthesis starts. -/
inductive Opening where
  | setFlags (change : FlagChange)
  | group (kind : GroupKind)

/-- Reads what follows an opening parenthesis. -/
def readOpening : Read Opening := do
  match ← skip with
  | '?' :: '=' :: _ => fault .lookAround
  | '?' :: '!' :: _ => fault .lookAround
  | '?' :: '<' :: '=' :: _ => fault .lookAround
  | '?' :: '<' :: '!' :: _ => fault .lookAround
  | '?' :: 'P' :: '<' :: t =>
    goTo t
    return .group (.capture (← newNamedGroup))
  | '?' :: '<' :: t =>
    goTo t
    return .group (.capture (← newNamedGroup))
  | '?' :: t =>
    let (change, stop, after) ← readFlags true [] t
    goTo after
    return if stop == ')' then .setFlags change else .group (.plain change)
  | _ => return .group (.capture (← newGroup))

/-- Whether white space is skipped after a change of flags. -/
def spacedAfter (change : FlagChange) (spaced : Bool) : Bool :=
  (change.lookup .spaced).getD spaced

/-! ## Expressions -/

/-- A sequence so far, item by item. -/
abbrev Items := Option Tree

/-- The sequence with one more item. -/
def Items.push (items : Items) (t : Tree) : Items :=
  some (match items with
    | none => t
    | some row => .concat row t)

/-- The sequence as one tree. -/
def Items.tree (items : Items) : Tree := items.getD .empty

/-- The sequence with its last item repeated. -/
def Items.repeatLast (min : Nat) (max : Option Nat) (greedy : Bool) : Items → Except Fault Items
  | none => .error .nothingToRepeat
  | some .empty => .error .nothingToRepeat
  | some (.flags _) => .error .nothingToRepeat
  | some (.concat _ .empty) => .error .nothingToRepeat
  | some (.concat _ (.flags _)) => .error .nothingToRepeat
  | some (.concat row t) => .ok (some (.concat row (.repetition t min max greedy)))
  | some t => .ok (some (.repetition t min max greedy))

/-- The alternatives with one more. -/
def joinBranches (done : Option Tree) (branch : Tree) : Tree :=
  match done with
  | none => branch
  | some row => .alt row branch

/-- One character, or what it starts, outside of classes. -/
def readPrimitive (c : Char) : Read Tree :=
  if c == '.' then return .dot
  else if c == '^' then return .assertion .start
  else if c == '$' then return .assertion .stop
  else if c == '\\' then do
    match ← readEscape with
    | .literal l => return .literal l
    | .atom a => return .atom a
    | .assertion a => return .assertion a
  else return .literal ⟨c, false⟩

/-- Alternatives up to a closing parenthesis or the end.  `done` are the alternatives before, `items`
    the sequence at hand. -/
def readAlternatives (done : Option Tree) (items : Items) : Nat → Read Tree
  | 0 => fault .tooDeep
  | fuel + 1 => do
    match ← skip with
    | [] => return joinBranches done items.tree
    | c :: after =>
      if c == ')' then return joinBranches done items.tree
      else
        goTo after
        if c == '|' then readAlternatives (some (joinBranches done items.tree)) none fuel
        else if c == '*' then
          readAlternatives done (← items.repeatLast 0 none (← readGreedy)) fuel
        else if c == '+' then
          readAlternatives done (← items.repeatLast 1 none (← readGreedy)) fuel
        else if c == '?' then
          readAlternatives done (← items.repeatLast 0 (some 1) (← readGreedy)) fuel
        else if c == '\x7b' then
          let (min, max) ← readCounts after
          readAlternatives done (← items.repeatLast min max (← readGreedy)) fuel
        else if c == '(' then
          match ← readOpening with
          | .setFlags change =>
            modify fun c => { c with spaced := spacedAfter change c.spaced }
            readAlternatives done (items.push (.flags change)) fuel
          | .group kind =>
            let spaced := (← get).spaced
            if let .plain change := kind then
              modify fun c => { c with spaced := spacedAfter change spaced }
            let t ← readAlternatives none none fuel
            match ← rest with
            | ')' :: after =>
              modify fun c => { c with rest := after, spaced := spaced }
              readAlternatives done (items.push (.group kind t)) fuel
            | _ => fault .unclosedGroup
        else if c == '[' then
          let (negated, body) ← readClass fuel
          readAlternatives done (items.push (.bracket negated body)) fuel
        else
          readAlternatives done (items.push (← readPrimitive c)) fuel

/-- How deep an expression may nest. -/
def maxDepth : Nat := 250

/-- A tree with its groups. -/
structure Reading where
  tree : Tree
  groups : Nat
  names : List (Text × Nat)

/-- The tree of a text. -/
def readTree (source : Text) : Except Fault Reading := do
  let (tree, cursor) ← (readAlternatives none none (source.length + 2)).run { rest := source }
  if !cursor.rest.isEmpty then throw .unopenedGroup
  if tree.depth > maxDepth then throw .tooDeep
  return ⟨tree, cursor.groups, cursor.names⟩

end Typings.Regex
