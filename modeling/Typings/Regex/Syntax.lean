import Typings.Unicode.Property

/-!
# Regular expressions as written

The tree of an expression keeps what its text says: how characters are written, which flags change
where, and which names ask for sets.

* `Flag`, `FlagChange`: the switches and a change of some.
* `ClassAtom`, `ClassTree`: what stands between brackets.
* `Tree`: an expression; sequences and alternatives lean to the left.
* `Tree.depth`: how deep an expression nests.

Nothing is decided about sets or flags yet, so that faults of the notation are told before faults of
meaning. The depth is measured on the tree, because that is what the limit on nesting is about.
-/

namespace Typings.Regex

open Unicode (PropertyQuery)

/-- Why a text is no regular expression. -/
inductive Fault where
  | unclosedClass
  | badClassRange
  | badClassEscape
  | unclosedGroup
  | unopenedGroup
  | badGroupName
  | repeatedGroupName
  | badFlag
  | nothingToRepeat
  | badCount
  | badEscape
  | unknownProperty
  | lookAround
  | backreference
  | notUnicode
  | tooDeep
  | tooLarge
deriving DecidableEq, Repr

/-- The fault in words. -/
def Fault.message : Fault → Text
  | .unclosedClass => "unclosed character class"
  | .badClassRange => "invalid character class range"
  | .badClassEscape => "invalid escape sequence found in character class"
  | .unclosedGroup => "unclosed group"
  | .unopenedGroup => "unopened group"
  | .badGroupName => "invalid capture group name"
  | .repeatedGroupName => "duplicate capture group name"
  | .badFlag => "unrecognized flag"
  | .nothingToRepeat => "repetition operator missing expression"
  | .badCount => "invalid repetition count"
  | .badEscape => "unrecognized escape sequence"
  | .unknownProperty => "Unicode property not found"
  | .lookAround => "look-around is not supported"
  | .backreference => "backreferences are not supported"
  | .notUnicode => "pattern can match invalid UTF-8"
  | .tooDeep => "exceeds the nesting limit"
  | .tooLarge => "compiled pattern exceeds the size limit"

/-! ## Flags -/

/-- The switches of an expression. -/
inductive Flag where
  | ignoreCase
  | multiLine
  | dotAll
  | swapGreed
  | unicode
  | crlf
  | spaced
deriving DecidableEq, Repr

/-- The flag with a letter. -/
def Flag.ofChar? : Char → Option Flag
  | 'i' => some .ignoreCase
  | 'm' => some .multiLine
  | 's' => some .dotAll
  | 'U' => some .swapGreed
  | 'u' => some .unicode
  | 'R' => some .crlf
  | 'x' => some .spaced
  | _ => none

/-- The flags that are switched, each with its new value. -/
abbrev FlagChange := List (Flag × Bool)

/-! ## Characters and classes -/

/-- A character.  Written with two hexadecimal digits it can also be meant for a byte. -/
structure Literal where
  char : Char
  byteCode : Bool := false
deriving DecidableEq, Repr

/-- The classes written with a letter. -/
inductive LetterClass where
  | digit
  | space
  | word
deriving DecidableEq, Repr

/-- The classes of ASCII characters that have a name. -/
inductive AsciiClass where
  | alnum
  | alpha
  | ascii
  | blank
  | cntrl
  | digit
  | graph
  | lower
  | print
  | punct
  | space
  | upper
  | word
  | xdigit
deriving DecidableEq, Repr

/-- The class with a name. -/
def AsciiClass.ofName? (name : Text) : Option AsciiClass :=
  match name.toString with
  | "alnum" => some .alnum
  | "alpha" => some .alpha
  | "ascii" => some .ascii
  | "blank" => some .blank
  | "cntrl" => some .cntrl
  | "digit" => some .digit
  | "graph" => some .graph
  | "lower" => some .lower
  | "print" => some .print
  | "punct" => some .punct
  | "space" => some .space
  | "upper" => some .upper
  | "word" => some .word
  | "xdigit" => some .xdigit
  | _ => none

/-- What a class is made of. -/
inductive ClassAtom where
  | literal (l : Literal)
  | range (first last : Literal)
  | ascii (c : AsciiClass) (negated : Bool)
  | letter (c : LetterClass) (negated : Bool)
  | property (q : PropertyQuery) (negated : Bool)
deriving DecidableEq, Repr

/-- The operations between the sets of a class. -/
inductive SetOp where
  | inter
  | diff
  | symmDiff
deriving DecidableEq, Repr

/-- A class; items one after the other lean to the left. -/
inductive ClassTree where
  | none
  | atom (a : ClassAtom)
  | union (items : ClassTree) (item : ClassTree)
  | op (o : SetOp) (a b : ClassTree)
  | bracket (negated : Bool) (body : ClassTree)
deriving Inhabited

/-- The class with one more item. -/
def ClassTree.push : ClassTree → ClassTree → ClassTree
  | .none, item => item
  | items, item => .union items item

/-! ## Expressions -/

/-- A condition as it is written. -/
inductive Assertion where
  /-- `^` -/
  | start
  /-- `$` -/
  | stop
  | textStart
  | textEnd
  | boundary
  | noBoundary
  | wordStart
  | wordEnd
  | wordStartHalf
  | wordEndHalf
deriving DecidableEq, Repr

/-- What parentheses are for. -/
inductive GroupKind where
  | capture (index : Nat)
  | plain (flags : FlagChange)
deriving DecidableEq, Repr

/-- An expression as it is written. -/
inductive Tree where
  | empty
  | flags (change : FlagChange)
  | literal (l : Literal)
  | dot
  | assertion (a : Assertion)
  /-- A class of one atom, without brackets. -/
  | atom (a : ClassAtom)
  | bracket (negated : Bool) (body : ClassTree)
  | repetition (t : Tree) (min : Nat) (max : Option Nat) (greedy : Bool)
  | group (kind : GroupKind) (t : Tree)
  | concat (items : Tree) (item : Tree)
  | alt (branches : Tree) (branch : Tree)
deriving Inhabited

/-! ## Depth -/

/-- How deep a class nests; `inUnion` tells that the items around it are counted. -/
def ClassTree.depth : ClassTree → (inUnion : Bool) → Nat
  | .none, _ => 0
  | .atom _, _ => 0
  | .union items item, inUnion =>
    (if inUnion then 0 else 1) + max (items.depth true) (item.depth false)
  | .op _ a b, _ => 1 + max (a.depth false) (b.depth false)
  | .bracket _ body, _ => 1 + body.depth false

/-- What a tree is part of. -/
inductive Around where
  | alone
  | sequence
  | choice
deriving DecidableEq, Repr

/-- How deep a tree nests; a row of items or of branches counts once. -/
def Tree.depthIn : Tree → Around → Nat
  | .empty, _ => 0
  | .flags _, _ => 0
  | .literal _, _ => 0
  | .dot, _ => 0
  | .assertion _, _ => 0
  | .atom _, _ => 0
  | .bracket negated body, _ => (ClassTree.bracket negated body).depth false
  | .repetition t _ _ _, _ => 1 + t.depthIn .alone
  | .group _ t, _ => 1 + t.depthIn .alone
  | .concat items item, around =>
    (if around = .sequence then 0 else 1) + max (items.depthIn .sequence) (item.depthIn .alone)
  | .alt branches branch, around =>
    (if around = .choice then 0 else 1) + max (branches.depthIn .choice) (branch.depthIn .alone)

/-- How deep an expression nests. -/
def Tree.depth (t : Tree) : Nat := t.depthIn .alone

end Typings.Regex
