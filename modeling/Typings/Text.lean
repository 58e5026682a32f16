/-!
# `Text`: characters in a row

Declaration files, path spellings and specifiers are all handled as lists of characters.  String
literals coerce to `Text`, so a rule can be written with its literal in place.

* `Text.byteSize`, `Text.bytes`: the length in UTF-8 bytes, the unit of every offset the library
  reports, and the bytes.
* `Text.isBlank`, `Text.trim`, `Text.words`: the Unicode `White_Space` property and the two ways of
  cutting a text at it.
* `Text.startsWith`, `Text.endsWith`, `Text.hasInfix`: what a text begins with, ends with or has in it.
* `Text.cutAt?`, `Text.cutFirst?`, `Text.cutLast?`: the two sides of a place that is searched for.
* `Text.lines`: the lines, without their endings.

Cutting at a separator, putting back and taking off a known beginning or end are the operations of
lists: `List.splitOn`, `List.intercalate`, `List.isPrefixOf?` and `List.isSuffixOf?`.
-/

namespace Typings

/-- A text is the list of its characters. -/
abbrev Text := List Char

instance : Coe String Text := ⟨String.toList⟩

/-- What holds of every character of a text is decided along the text, not over all characters. -/
instance (priority := 1100) (p : Char → Prop) [DecidablePred p] (t : Text) :
    Decidable (∀ c ∈ t, p c) := List.decidableBAll p t

namespace Text

/-- The text as a string, for printing. -/
def toString (t : Text) : String := String.ofList t

/-- The number of UTF-8 bytes of a text. -/
def byteSize : Text → Nat
  | [] => 0
  | c :: t => c.utf8Size + byteSize t

@[simp] theorem byteSize_nil : byteSize [] = 0 := rfl

@[simp] theorem byteSize_cons (c : Char) (t : Text) :
    byteSize (c :: t) = c.utf8Size + byteSize t := rfl

@[simp] theorem byteSize_append (s t : Text) : byteSize (s ++ t) = byteSize s + byteSize t := by
  induction s with
  | nil => simp
  | cons c s ih =>
      have h : byteSize ((c :: s) ++ t) = c.utf8Size + byteSize (s ++ t) := rfl
      rw [h, ih, byteSize_cons, Nat.add_assoc]

/-- The UTF-8 bytes of a text. -/
def bytes (t : Text) : List UInt8 := t.flatMap String.utf8EncodeChar

/-- The bytes of a text are as many as its size. -/
theorem length_bytes (t : Text) : (bytes t).length = byteSize t := by
  induction t with
  | nil => rfl
  | cons c t ih =>
      have h : bytes (c :: t) = String.utf8EncodeChar c ++ bytes t := rfl
      rw [h, List.length_append, ih, String.length_utf8EncodeChar, byteSize_cons]

/-! ## Blank characters -/

/-- The characters with the Unicode property `White_Space`. -/
def isBlank (c : Char) : Bool :=
  let n := c.toNat
  (9 ≤ n && n ≤ 13) || n == 32 || n == 0x85 || n == 0xA0 || n == 0x1680 ||
    (0x2000 ≤ n && n ≤ 0x200A) || n == 0x2028 || n == 0x2029 || n == 0x202F || n == 0x205F ||
    n == 0x3000

/-- The blank characters of ASCII but the vertical tab: the space between tokens of a script. -/
def isAsciiBlank (c : Char) : Bool :=
  c == ' ' || c == '\t' || c == '\n' || c == '\r' || c == '\x0c'

/-- Without the characters in front that satisfy `p`. -/
def trimStartBy (p : Char → Bool) (t : Text) : Text := t.dropWhile p

/-- Without the characters at the end that satisfy `p`. -/
def trimEndBy (p : Char → Bool) (t : Text) : Text := (t.reverse.dropWhile p).reverse

/-- Without blanks in front. -/
def trimStart (t : Text) : Text := trimStartBy isBlank t

/-- Without blanks at the end. -/
def trimEnd (t : Text) : Text := trimEndBy isBlank t

/-- Without blanks on either side. -/
def trim (t : Text) : Text := trimEnd (trimStart t)

/-! ## Cutting, and known beginnings and ends -/

/-- The maximal runs of characters that are not blank. -/
def words (t : Text) : List Text := (List.splitOnP isBlank t).filter (fun w => !w.isEmpty)

/-- The text begins with `p`. -/
def startsWith (t p : Text) : Bool := List.isPrefixOf p t

/-- The text ends with `p`. -/
def endsWith (t p : Text) : Bool := List.isSuffixOf p t

/-! ## Searching -/

/-- The text before the first place where `p` occurs, and the text after it. -/
def cutAt? (p : Text) : Text → Option (Text × Text)
  | [] => if p.isEmpty then some ([], []) else none
  | c :: t =>
    match List.isPrefixOf? p (c :: t) with
    | some rest => some ([], rest)
    | none => (cutAt? p t).map fun (before, rest) => (c :: before, rest)

/-- The text has `p` somewhere in it. -/
def hasInfix (t p : Text) : Bool := (cutAt? p t).isSome

/-- The text before the last `c`, and the text after it. -/
def cutLast? (c : Char) (t : Text) : Option (Text × Text) :=
  match t.reverse.span (· != c) with
  | (_, []) => none
  | (after, _ :: before) => some (before.reverse, after.reverse)

/-- The text before the first `c`, and the text after it. -/
def cutFirst? (c : Char) (t : Text) : Option (Text × Text) :=
  match t.span (· != c) with
  | (_, []) => none
  | (before, _ :: after) => some (before, after)

/-- The first occurrence of `p` becomes `r`. -/
def replaceFirst (p r t : Text) : Text :=
  match cutAt? p t with
  | some (before, rest) => before ++ r ++ rest
  | none => t

/-- Every occurrence of the character `c` becomes `d`. -/
def replaceChar (c d : Char) (t : Text) : Text := t.map fun x => if x == c then d else x

/-! ## Lines -/

/-- Without one carriage return at the end. -/
def chomp (t : Text) : Text := (List.isSuffixOf? ['\r'] t).getD t

/-- The lines of a text: a line ends at a line feed, a carriage return before it belongs to the
    ending, and an ending at the end of the text starts no further line. -/
def lines (t : Text) : List Text :=
  match (List.splitOn '\n' t).reverse with
  | [] => []
  | last :: front => front.reverse.map chomp ++ if last.isEmpty then [] else [last]

/-- The decimal digits of a number. -/
def ofNat (n : Nat) : Text := Nat.toDigits 10 n

/-- The decimal digits of a number, with a sign when it is negative. -/
def ofInt : Int → Text
  | .ofNat n => ofNat n
  | .negSucc n => '-' :: ofNat (n + 1)

/-- Code point order, which is also the order of the UTF-8 bytes. -/
def compare : Text → Text → Ordering
  | [], [] => .eq
  | [], _ :: _ => .lt
  | _ :: _, [] => .gt
  | c :: s, d :: t => if c < d then .lt else if d < c then .gt else compare s t

end Text

end Typings
