import Typings.Regex.Expr
import Typings.Regex.Syntax
import Typings.Unicode.CaseFold

/-!
# From trees to expressions

Flags decide what a tree means.  Without Unicode, sets hold characters of ASCII only, since a set of
other bytes could match a part of a character.

* `Flags`: the flags that hold at a place.
* `ClassTree.set`: the characters of a class.
* `Tree.expr`: the expression of a tree.

A flag that is changed holds up to the end of its group, so the flags are handed from each part of a
sequence to the next, and given back at the end.  Under the flag that ignores case a set is closed
under simple case folding before it is negated.
-/

namespace Typings.Regex

open Unicode (CodeSet)

/-- The flags that hold at a place. -/
structure Flags where
  ignoreCase : Bool := false
  multiLine : Bool := false
  dotAll : Bool := false
  swapGreed : Bool := false
  crlf : Bool := false
  unicode : Bool := true

namespace Flags

/-- The flags with one set to a value. -/
def set (flags : Flags) (value : Bool) : Flag → Flags
  | .ignoreCase => { flags with ignoreCase := value }
  | .multiLine => { flags with multiLine := value }
  | .dotAll => { flags with dotAll := value }
  | .swapGreed => { flags with swapGreed := value }
  | .crlf => { flags with crlf := value }
  | .unicode => { flags with unicode := value }
  | .spaced => flags

/-- The flags after a change. -/
def change (flags : Flags) (c : FlagChange) : Flags :=
  c.foldl (fun flags (flag, value) => flags.set value flag) flags

end Flags

/-! ## Sets -/

/-- A set under the flag that ignores case. -/
def underCase (flags : Flags) (s : CodeSet) : CodeSet :=
  if !flags.ignoreCase then s
  else if flags.unicode then Unicode.caseClosure s
  else Unicode.asciiCaseClosure s

/-- A set or its complement, which without Unicode has bytes that are no characters. -/
def negateIf (flags : Flags) (negated : Bool) (s : CodeSet) : Except Fault CodeSet :=
  if !negated then .ok s
  else if flags.unicode then .ok s.compl
  else .error .notUnicode

/-- The characters of a named class of ASCII. -/
def AsciiClass.set : AsciiClass → CodeSet
  | .alnum => .ofRows ["30-39 41-5A 61-7A"]
  | .alpha => .ofRows ["41-5A 61-7A"]
  | .ascii => .ofRows ["0-7F"]
  | .blank => .ofRows ["9 20"]
  | .cntrl => .ofRows ["0-1F 7F"]
  | .digit => .ofRows ["30-39"]
  | .graph => .ofRows ["21-7E"]
  | .lower => .ofRows ["61-7A"]
  | .print => .ofRows ["20-7E"]
  | .punct => .ofRows ["21-2F 3A-40 5B-60 7B-7E"]
  | .space => .ofRows ["9-D 20"]
  | .upper => .ofRows ["41-5A"]
  | .word => .ofRows ["30-39 41-5A 5F 61-7A"]
  | .xdigit => .ofRows ["30-39 41-46 61-66"]

/-- The characters of a class written with a letter. -/
def LetterClass.set (unicode : Bool) : LetterClass → CodeSet
  | .digit => if unicode then Unicode.Category.nd.set else AsciiClass.digit.set
  | .space => if unicode then Unicode.BinaryProperty.listed .whiteSpace else AsciiClass.space.set
  | .word => if unicode then Unicode.wordSet else AsciiClass.word.set

/-- The character of a literal; a byte outside ASCII is none. -/
def Literal.char? (flags : Flags) (l : Literal) : Except Fault Char :=
  if !flags.unicode && l.byteCode && l.char.toNat ≥ 0x80 then .error .notUnicode
  else .ok l.char

/-- The character of a literal in a class, which without Unicode is one of ASCII. -/
def Literal.classChar? (flags : Flags) (l : Literal) : Except Fault Char :=
  if !flags.unicode && l.char.toNat ≥ 0x80 then .error .notUnicode
  else .ok l.char

/-- The characters of an atom. -/
def ClassAtom.set (flags : Flags) : ClassAtom → Except Fault CodeSet
  | .literal l => do return .single (← l.classChar? flags)
  | .range a b => do
    let first ← a.classChar? flags
    let last ← b.classChar? flags
    return .range first.toNat last.toNat
  | .ascii c negated => negateIf flags negated (underCase flags c.set)
  | .letter c negated => negateIf flags negated (c.set flags.unicode)
  | .property q negated =>
    if !flags.unicode then .error .notUnicode
    else match q.set? with
      | some s => negateIf flags negated (underCase flags s)
      | none => .error .unknownProperty

/-- The set an operation gives. -/
def SetOp.apply (o : SetOp) (a b : CodeSet) : CodeSet :=
  match o with
  | .inter => a.inter b
  | .diff => a.diff b
  | .symmDiff => a.symmDiff b

/-- The characters of a class. -/
def ClassTree.set (flags : Flags) : ClassTree → Except Fault CodeSet
  | .none => .ok .none
  | .atom a => a.set flags
  | .union items item => do return (← items.set flags).union (← item.set flags)
  | .op o a b => do
    return o.apply (underCase flags (← a.set flags)) (underCase flags (← b.set flags))
  | .bracket negated body => do negateIf flags negated (underCase flags (← body.set flags))

/-! ## Expressions -/

/-- A character, or the characters that differ from it in case only. -/
def literalExpr (flags : Flags) (c : Char) : Expr :=
  if flags.ignoreCase then .ofSet (underCase flags (.single c)) else .literal [c]

/-- Any character, or any but those that end a line. -/
def dotSet (flags : Flags) : Except Fault CodeSet :=
  if !flags.unicode then .error .notUnicode
  else if flags.dotAll then .ok .all
  else if flags.crlf then .ok (CodeSet.ofText "\r\n").compl
  else .ok (CodeSet.ofText "\n").compl

/-- The condition of an assertion. -/
def Assertion.look (flags : Flags) : Assertion → Look
  | .start => if !flags.multiLine then .textStart else if flags.crlf then .crlfStart else .lineStart
  | .stop => if !flags.multiLine then .textEnd else if flags.crlf then .crlfEnd else .lineEnd
  | .textStart => .textStart
  | .textEnd => .textEnd
  | .boundary => .boundary
  | .noBoundary => .noBoundary
  | .wordStart => .wordStart
  | .wordEnd => .wordEnd
  | .wordStartHalf => .wordStartHalf
  | .wordEndHalf => .wordEndHalf

/-- The alternatives of a tree under the flags, and the flags after it. -/
def Tree.alternatives : Tree → Flags → Except Fault (List Expr × Flags)
  | .empty, f => .ok ([.empty], f)
  | .flags change, f => .ok ([.empty], f.change change)
  | .literal l, f => do return ([literalExpr f (← l.char? f)], f)
  | .dot, f => do return ([.ofSet (← dotSet f)], f)
  | .assertion a, f => .ok ([.look (a.look f) f.unicode], f)
  | .atom a, f => do return ([.ofSet (← a.set f)], f)
  | .bracket negated body, f => do
    return ([.ofSet (← (ClassTree.bracket negated body).set f)], f)
  | .repetition t min max greedy, f => do
    let (es, f) ← t.alternatives f
    return ([(Expr.choice es).times min max (greedy != f.swapGreed)], f)
  | .group (.capture index) t, f => do
    let (es, _) ← t.alternatives f
    return ([.group index (.choice es)], f)
  | .group (.plain change) t, f => do
    let (es, _) ← t.alternatives (f.change change)
    return ([.choice es], f)
  | .concat row item, f => do
    let (es, f) ← row.alternatives f
    let (fs, f) ← item.alternatives f
    return ([.sequence [.choice es, .choice fs]], f)
  | .alt row branch, f => do
    let (es, f) ← row.alternatives f
    let (fs, f) ← branch.alternatives f
    return (es ++ fs, f)

/-- The expression of a tree. -/
def Tree.expr (t : Tree) : Except Fault Expr := do
  let (es, _) ← t.alternatives {}
  return .choice es

end Typings.Regex
