import Typings.Text.Digit
import Typings.Toml.Value

/-!
# Strings, numbers, dates

Each reader takes what it reads off the front of a text and gives the rest.

* `readString?`: the four kinds of strings.
* `readNumber?`: whole numbers within 64 bits to four bases, and doubles.
* `readDateTime?`: dates and times.

A string of several lines has its line ends made line feeds, and a line feed right after its opening
quotes is left out. Underscores stand between digits only, and a whole number has to fit 64 bits.
-/

namespace Typings.Toml

/-- The rest after the end of a line. -/
def newline? : Text → Option Text
  | '\n' :: t => some t
  | '\r' :: '\n' :: t => some t
  | _ => none

/-- The blanks inside of a line. -/
def isSpace (c : Char) : Bool := c == ' ' || c == '\t'

/-- The rest after blanks. -/
def skipSpace (t : Text) : Text := t.dropWhile isSpace

/-! ## Strings -/

/-- A character that is no control character, or a tab. -/
def isPlain (c : Char) : Bool := c == '\t' || (0x20 ≤ c.toNat && c.toNat != 0x7F)

/-- The character of an escape of one letter. -/
def simpleEscape? : Char → Option Char
  | 'b' => some '\x08'
  | 't' => some '\t'
  | 'n' => some '\n'
  | 'f' => some '\x0c'
  | 'r' => some '\r'
  | '"' => some '"'
  | '\\' => some '\\'
  | _ => none

/-- A character given by the first digits of a text. -/
def readCode? (count : Nat) (t : Text) : Option (Char × Text) :=
  if t.length < count then none else (Text.charOfCode? (t.take count)).map (·, t.drop count)

/-- An escape after its backslash. -/
def readEscape? : Text → Option (Char × Text)
  | 'u' :: t => readCode? 4 t
  | 'U' :: t => readCode? 8 t
  | c :: t => (simpleEscape? c).map (·, t)
  | [] => none

/-- The rest after blanks and ends of lines. -/
def skipLines : Text → Text
  | '\n' :: t => skipLines t
  | '\r' :: '\n' :: t => skipLines t
  | c :: t => if isSpace c then skipLines t else c :: t
  | [] => []

/-- The rest after the end of a line and all blanks that follow, if only blanks stand before it. -/
def joinLines? (t : Text) : Option Text := (newline? (skipSpace t)).map skipLines

/-- One character in front of a string that was read. -/
def push (c : Char) (r : Option (Text × Text)) : Option (Text × Text) :=
  r.map fun (s, rest) => (c :: s, rest)

/-- A string with escapes, after its opening quote. -/
def readBasic? : Nat → Text → Option (Text × Text)
  | 0, _ => none
  | _, '"' :: t => some ([], t)
  | fuel + 1, '\\' :: t => do
    let (c, rest) ← readEscape? t
    push c (readBasic? fuel rest)
  | fuel + 1, c :: t => if isPlain c then push c (readBasic? fuel t) else none
  | _, [] => none

/-- A string without escapes, after its opening quote. -/
def readLiteral? : Text → Option (Text × Text)
  | '\'' :: t => some ([], t)
  | c :: t => if isPlain c then push c (readLiteral? t) else none
  | [] => none

/-- Three quotes that close a string of several lines, and up to two in front of them that belong to
    it. -/
def closing? (quote : Char) (t : Text) : Option (Text × Text) :=
  match (t.takeWhile (· == quote)).length with
  | 0 | 1 | 2 => none
  | 3 => some ([], t.drop 3)
  | 4 => some ([quote], t.drop 4)
  | _ => some ([quote, quote], t.drop 5)

/-- A string of several lines, after its opening quotes.  A line ends in a line feed whatever its
    ending was; with `escapes`, a backslash starts an escape or joins lines. -/
def readLines? (quote : Char) (escapes : Bool) : Nat → Text → Option (Text × Text)
  | 0, _ => none
  | fuel + 1, t =>
    match closing? quote t with
    | some r => some r
    | none =>
      match t with
      | '\n' :: t => push '\n' (readLines? quote escapes fuel t)
      | '\r' :: '\n' :: t => push '\n' (readLines? quote escapes fuel t)
      | c :: t =>
        if escapes && c == '\\' then
          match joinLines? t with
          | some rest => readLines? quote escapes fuel rest
          | none => do
            let (d, rest) ← readEscape? t
            push d (readLines? quote escapes fuel rest)
        else if isPlain c then push c (readLines? quote escapes fuel t)
        else none
      | [] => none

/-- A string of several lines; an end of line right after the opening quotes does not count. -/
def readBlock? (quote : Char) (escapes : Bool) (t : Text) : Option (Text × Text) :=
  readLines? quote escapes (t.length + 1) ((newline? t).getD t)

/-- A string of one line. -/
def readLine? : Text → Option (Text × Text)
  | '"' :: t => readBasic? (t.length + 1) t
  | '\'' :: t => readLiteral? t
  | _ => none

/-- A string. -/
def readString? : Text → Option (Text × Text)
  | '"' :: '"' :: '"' :: t => readBlock? '"' true t
  | '\'' :: '\'' :: '\'' :: t => readBlock? '\'' false t
  | t => readLine? t

/-! ## Numbers -/

/-- The digits to a base in front of a text, without the underscores that may stand between any two
    of them; none when an underscore has no digit on either side. -/
def readDigits? (base : Nat) (t : Text) : Option (Text × Text) :=
  let isDigit (c : Char) : Bool := (Text.digitValue? base c).isSome
  let (run, rest) := t.span fun c => isDigit c || c == '_'
  let groups := List.splitOn '_' run
  if groups.any List.isEmpty then none else some (groups.flatten, rest)

/-- A sign, if there is one, and whether it is a minus. -/
def readSign : Text → Bool × Text
  | '+' :: t => (false, t)
  | '-' :: t => (true, t)
  | t => (false, t)

/-- Decimal digits without a zero in front of others. -/
def readWhole? (t : Text) : Option (Text × Text) :=
  match readDigits? 10 t with
  | some ('0' :: _ :: _, _) => none
  | r => r

/-- A whole number within 64 bits. -/
def ofWhole? (negative : Bool) (n : Nat) : Option Toml :=
  if negative then if n ≤ Nat.pow 2 63 then some (.integer (-(n : Int))) else none
  else if n < Nat.pow 2 63 then some (.integer n) else none

/-- A whole number to a base other than ten, after its mark. -/
def readBased? (base : Nat) (t : Text) : Option (Toml × Text) := do
  let (digits, rest) ← readDigits? base t
  let value ← ofWhole? false (← Text.number? base digits)
  pure (value, rest)

/-- The double nearest to `significand · 10 ^ exponent`.  Beyond the bounds the digits no longer
    matter. -/
def nearest (significand : Nat) (digits : Nat) (exponent : Int) : Float :=
  if significand == 0 || exponent + digits < -400 then 0
  else if exponent > 400 then 1 / 0
  else Float.ofScientific significand (exponent < 0) exponent.natAbs

/-- The digits of a fraction after its point; a number without one has no digits there. -/
def readFraction? : Text → Option (Text × Text)
  | '.' :: t => readDigits? 10 t
  | t => some ([], t)

/-- The value of an exponent, if there is one. -/
def readExponent? : Text → Option ((Option Int) × Text)
  | c :: t =>
    if c == 'e' || c == 'E' then do
      let (negative, t) := readSign t
      let (digits, rest) ← readDigits? 10 t
      let n ← Text.number? 10 digits
      pure (some (if negative then -(n : Int) else n), rest)
    else some (none, c :: t)
  | [] => some (none, [])

/-- A number after its sign: a double if it has a fraction or an exponent.  A number too large for a
    double is none, but a negative one is minus infinity. -/
def readDecimal? (negative : Bool) (t : Text) : Option (Toml × Text) := do
  let (whole, rest) ← readWhole? t
  let (fraction, rest) ← readFraction? rest
  let (exponent, rest) ← readExponent? rest
  let n ← Text.number? 10 (whole ++ fraction)
  if fraction.isEmpty && exponent.isNone then
    pure (← ofWhole? negative n, rest)
  else
    let shift := exponent.getD 0 - fraction.length
    let f := nearest n (whole.length + fraction.length) shift
    if f.isInf && !negative then none
    else pure (.float (if negative then -f else f).toBits, rest)

/-- The doubles that are no numbers, after their sign. -/
def readSpecial? (negative : Bool) : Text → Option (Toml × Text)
  | 'i' :: 'n' :: 'f' :: t =>
    let infinity : Float := 1 / 0
    some (.float (if negative then -infinity else infinity).toBits, t)
  | 'n' :: 'a' :: 'n' :: t =>
    let nan : Float := 0 / 0
    some (.float (if negative then -nan else nan).toBits, t)
  | _ => none

/-- A number. -/
def readNumber? : Text → Option (Toml × Text)
  | '0' :: 'x' :: t => readBased? 16 t
  | '0' :: 'o' :: t => readBased? 8 t
  | '0' :: 'b' :: t => readBased? 2 t
  | t =>
    let (negative, t) := readSign t
    readSpecial? negative t <|> readDecimal? negative t

/-! ## Dates and times -/

/-- A number with just so many digits. -/
def readCount? (count : Nat) (t : Text) : Option (Nat × Text) :=
  if t.length < count then none else (Text.number? 10 (t.take count)).map (·, t.drop count)

/-- A number with just so many digits after a mark. -/
def readAfter? (mark : Char) (count : Nat) : Text → Option (Nat × Text)
  | c :: t => if c == mark then readCount? count t else none
  | [] => none

/-- A date. -/
def readDate? (t : Text) : Option (Date × Text) := do
  let (year, t) ← readCount? 4 t
  let (month, t) ← readAfter? '-' 2 t
  let (day, t) ← readAfter? '-' 2 t
  let date : Date := ⟨year, month, day⟩
  if date.isValid then pure (date, t) else none

/-- The fraction of a second in nanoseconds; digits that are too small for it are dropped. -/
def readNanoseconds : Text → Nat × Text
  | '.' :: t =>
    match t.span Char.isDigit with
    | ([], _) => (0, '.' :: t)
    | (digits, rest) =>
      let kept := digits.take 9
      (((Text.number? 10 kept).getD 0) * Nat.pow 10 (9 - kept.length), rest)
  | t => (0, t)

/-- A time of day. -/
def readTime? (t : Text) : Option (Time × Text) := do
  let (hour, t) ← readCount? 2 t
  let (minute, t) ← readAfter? ':' 2 t
  let (second, t) ← readAfter? ':' 2 t
  let (nanosecond, t) := readNanoseconds t
  let time : Time := ⟨hour, minute, second, nanosecond⟩
  if time.isValid then pure (time, t) else none

/-- An offset, if there is one. -/
def readOffset? : Text → Option ((Option Offset) × Text)
  | c :: t =>
    if c == 'Z' || c == 'z' then some (some .universal, t)
    else if c == '+' || c == '-' then do
      let (hours, t) ← readCount? 2 t
      let (minutes, t) ← readAfter? ':' 2 t
      if hours ≤ 23 && minutes ≤ 59 then
        let n : Int := hours * 60 + minutes
        pure (some (.minutes (if c == '-' then -n else n)), t)
      else none
    else some (none, c :: t)
  | [] => some (none, [])

/-- A time and an offset after a date and the mark between them. -/
def readTimeOfDate? : Text → Option ((Time × Option Offset) × Text)
  | c :: t =>
    if c == 'T' || c == 't' || c == ' ' then do
      let (time, t) ← readTime? t
      let (offset, t) ← readOffset? t
      pure ((time, offset), t)
    else none
  | [] => none

/-- A date or a time or both. -/
def readDateTime? (t : Text) : Option (DateTime × Text) :=
  match readDate? t with
  | some (date, rest) =>
    match readTimeOfDate? rest with
    | some ((time, offset), rest) => some ({ date := some date, time := some time, offset }, rest)
    | none => some ({ date := some date }, rest)
  | none => (readTime? t).map fun (time, rest) => ({ time := some time }, rest)

end Typings.Toml
