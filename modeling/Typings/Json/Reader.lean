import Typings.Json.Value
import Typings.Text.Digit

/-!
# Reading JSON

A document is read in one pass over its characters.  Numbers keep the leading digits that fit 64
bits; a number with a fraction, an exponent or more digits is the double nearest to those digits,
scaled by a power of ten.

* `readWritten?`: a whole text as a document.
* `read?`: a whole text as a value.

The reader makes a `Written` document, in which numbers out of range and halves of surrogate pairs are
still there; taking its value is a second step.  So a reader of records can pass over a field that has
no value.  `Proofs.Json.RoundTrip` says that what is printed is read back.
-/

namespace Typings.Json

/-- The blanks between the tokens of a document. -/
def isSpace (c : Char) : Bool := c == ' ' || c == '\n' || c == '\t' || c == '\r'

/-- The text after blanks. -/
def skipSpace (t : Text) : Text := t.dropWhile isSpace

/-! ## Numbers -/

/-- The value of a decimal digit. -/
def digitValue (c : Char) : Nat := c.toNat - '0'.toNat

/-- Takes up the digits, in front of which `significand` stands, as long as the number fits 64 bits;
    with the digits that are left. -/
def absorb (significand : Nat) : Text → Nat × Text
  | [] => (significand, [])
  | c :: t =>
    let next := significand * 10 + digitValue c
    if next < Nat.pow 2 64 then absorb next t else (significand, c :: t)

/-- The double nearest to a 64-bit number. -/
def nearestDouble (n : Nat) : Float := n.toUInt64.toFloat

/-- The double nearest to a power of ten up to `10 ^ 308`. -/
def powerOfTen (k : Nat) : Float := Float.ofScientific 1 false k

/-- `f · 10 ^ exponent`, rounded after each operation; none when it is too large. -/
def scale? (f : Float) (exponent : Int) : Option Float :=
  if exponent ≥ 0 then
    if exponent ≤ 308 then
      let r := f * powerOfTen exponent.toNat
      if r.isInf then none else some r
    else if f == 0 then some f else none
  else shrink 7 f exponent.natAbs
where
  /-- Divides by `10 ^ k`, at most `10 ^ 308` at a time; after two steps the result is zero. -/
  shrink : Nat → Float → Nat → Option Float
    | 0, _, _ => some 0
    | fuel + 1, f, k =>
      if k ≤ 308 then some (f / powerOfTen k)
      else if f == 0 then some f
      else shrink fuel (f / powerOfTen 308) (k - 308)

/-- A double with a sign. -/
def signed (negative : Bool) (f : Float) : Number := .float (if negative then -f else f).toBits

/-- A number's exponent as it is written: its sign and its digits. -/
structure Exponent where
  negative : Bool
  digits : Text

/-- The parts of a number as it is written. -/
structure NumberParts where
  negative : Bool
  whole : Text
  fraction : Option Text
  exponent : Option Exponent

/-- The number written with the given parts; none when it is out of range. -/
def NumberParts.value? (p : NumberParts) : Option Number :=
  let (significand, leftOver) := absorb 0 p.whole
  match leftOver, p.fraction, p.exponent with
  | [], none, none =>
    if !p.negative then some (.int significand)
    else if 0 < significand && significand ≤ Nat.pow 2 63 then some (.int (-(significand : Int)))
    else some (signed true (nearestDouble significand))
  | _, _, _ =>
    let fraction := p.fraction.getD []
    let (significand, dropped) := absorb significand fraction
    let shift : Int := (leftOver.length : Int) - (fraction.length - dropped.length : Nat)
    match p.exponent with
    | none => (scale? (nearestDouble significand) shift).map (signed p.negative)
    | some e =>
      let (n, rest) := absorb 0 e.digits
      -- An exponent beyond 32 bits is zero or too large whatever its digits.
      if !rest.isEmpty || n ≥ Nat.pow 2 31 then
        if significand != 0 && !e.negative then none else some (signed p.negative 0)
      else
        let total := if e.negative then shift - n else shift + n
        (scale? (nearestDouble significand) total).map (signed p.negative)

/-- The digits in front of a text, and the rest. -/
def spanDigits (t : Text) : Text × Text := t.span Char.isDigit

/-- A fraction: a point and at least one digit.  The outer option is a fault. -/
def readFraction? : Text → Option (Option Text × Text)
  | '.' :: t =>
    match spanDigits t with
    | ([], _) => none
    | (digits, rest) => some (some digits, rest)
  | t => some (none, t)

/-- An exponent: a mark, an optional sign and at least one digit.  The outer option is a fault. -/
def readExponent? : Text → Option (Option Exponent × Text)
  | c :: t =>
    if c == 'e' || c == 'E' then
      let (negative, digits) := match t with
        | '+' :: r => (false, r)
        | '-' :: r => (true, r)
        | r => (false, r)
      match spanDigits digits with
      | ([], _) => none
      | (ds, rest) => some (some ⟨negative, ds⟩, rest)
    else some (none, c :: t)
  | [] => some (none, [])

/-- A number without its sign: no leading zero before another digit. -/
def readNumber? (negative : Bool) (t : Text) : Option (Option Number × Text) :=
  match spanDigits t with
  | ([], _) => none
  | ('0' :: _ :: _, _) => none
  | (whole, rest) => do
    let (fraction, rest) ← readFraction? rest
    let (exponent, rest) ← readExponent? rest
    pure (NumberParts.value? ⟨negative, whole, fraction, exponent⟩, rest)

/-! ## Strings -/

/-- A character of a string, or a sixteen-bit unit given by an escape. -/
inductive StringUnit where
  | char (c : Char)
  | unit (n : Nat)

/-- The value of four hexadecimal digits. -/
def hexUnit? (a b c d : Char) : Option Nat := Text.number? 16 [a, b, c, d]

/-- The character of a one-letter escape. -/
def simpleEscape? : Char → Option Char
  | '"' => some '"'
  | '\\' => some '\\'
  | '/' => some '/'
  | 'b' => some '\x08'
  | 'f' => some '\x0c'
  | 'n' => some '\n'
  | 'r' => some '\r'
  | 't' => some '\t'
  | _ => none

/-- The units of a string up to its closing quote, and the rest. -/
def readUnits? : Text → Option (List StringUnit × Text)
  | '"' :: rest => some ([], rest)
  | '\\' :: 'u' :: a :: b :: c :: d :: rest =>
    match hexUnit? a b c d, readUnits? rest with
    | some n, some (units, rest) => some (.unit n :: units, rest)
    | _, _ => none
  | '\\' :: e :: rest =>
    match simpleEscape? e, readUnits? rest with
    | some c, some (units, rest) => some (.char c :: units, rest)
    | _, _ => none
  | c :: rest =>
    if c.toNat < 0x20 || c == '\\' then none
    else (readUnits? rest).map fun (units, rest) => (.char c :: units, rest)
  | [] => none

/-- The text of a string; two units may make one character, half a pair makes none. -/
def joinUnits? : List StringUnit → Option Text
  | [] => some []
  | .char c :: rest => (joinUnits? rest).map (c :: ·)
  | .unit n :: rest =>
    if 0xD800 ≤ n && n < 0xDC00 then
      match rest with
      | .unit m :: rest =>
        if 0xDC00 ≤ m && m < 0xE000 then
          (joinUnits? rest).map (Char.ofNat (0x10000 + (n - 0xD800) * 0x400 + (m - 0xDC00)) :: ·)
        else none
      | _ => none
    else if 0xDC00 ≤ n && n < 0xE000 then none
    else (joinUnits? rest).map (Char.ofNat n :: ·)

/-- A string after its opening quote. -/
def readString? (t : Text) : Option (Option Text × Text) :=
  (readUnits? t).map fun (units, rest) => (joinUnits? units, rest)

/-! ## Documents -/

mutual

/-- A document at the front of a text, and the rest.  Each nesting and each item uses up fuel, so the
    length of the text is enough. -/
def readNode? : Nat → Text → Option (Written × Text)
  | 0, _ => none
  | fuel + 1, t =>
    match skipSpace t with
    | '"' :: rest => (readString? rest).map fun (s, rest) => (.string s, rest)
    | '[' :: rest =>
      match skipSpace rest with
      | ']' :: rest => some (.array [], rest)
      | rest => (readItems? fuel rest).map fun (items, rest) => (.array items, rest)
    | '\x7b' :: rest =>
      match skipSpace rest with
      | '\x7d' :: rest => some (.object [], rest)
      | rest => (readFields? fuel rest).map fun (fields, rest) => (.object fields, rest)
    | '-' :: rest => (readNumber? true rest).map fun (n, rest) => (.number n, rest)
    | 'n' :: 'u' :: 'l' :: 'l' :: rest => some (.null, rest)
    | 't' :: 'r' :: 'u' :: 'e' :: rest => some (.bool true, rest)
    | 'f' :: 'a' :: 'l' :: 's' :: 'e' :: rest => some (.bool false, rest)
    | rest => (readNumber? false rest).map fun (n, rest) => (.number n, rest)

/-- The items of an array up to its closing bracket. -/
def readItems? : Nat → Text → Option (List Written × Text)
  | 0, _ => none
  | fuel + 1, t =>
    match readNode? fuel t with
    | none => none
    | some (item, rest) =>
      match skipSpace rest with
      | ',' :: rest => (readItems? fuel rest).map fun (items, rest) => (item :: items, rest)
      | ']' :: rest => some ([item], rest)
      | _ => none

/-- The fields of an object up to its closing brace. -/
def readFields? : Nat → Text → Option (List (Option Text × Written) × Text)
  | 0, _ => none
  | fuel + 1, t =>
    match skipSpace t with
    | '"' :: rest =>
      match readString? rest with
      | none => none
      | some (key, rest) =>
        match skipSpace rest with
        | ':' :: rest =>
          match readNode? fuel rest with
          | none => none
          | some (value, rest) =>
            match skipSpace rest with
            | ',' :: rest =>
              (readFields? fuel rest).map fun (fields, rest) => ((key, value) :: fields, rest)
            | '\x7d' :: rest => some ([(key, value)], rest)
            | _ => none
        | _ => none
    | _ => none

end

/-- A whole text as a document. -/
def readWritten? (t : Text) : Option Written :=
  match readNode? (t.length + 1) t with
  | some (w, rest) => if (skipSpace rest).isEmpty then some w else none
  | none => none

/-- A whole text as a value. -/
def read? (t : Text) : Option Json := (readWritten? t).bind (Written.value? Written.maxDepth)

end Typings.Json
