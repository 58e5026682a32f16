import Typings.Text

/-!
# Shortest decimals

The decimal of a binary floating-point number is the one with the fewest digits among those that
round to it, and of those the nearest.

* `Binary`: a positive number `m · 2 ^ q` with its neighbours' distance.
* `Decimal`: a positive number `digits · 10 ^ exponent`.
* `Binary.shortest`: the search, digit count by digit count, over the two neighbours of the number on
  each decimal grid, in exact arithmetic.

Both neighbours of the number on a decimal grid are tried, since the nearest of them need not be the
one that still rounds to the number. `Proofs.Json.Shortest` says that what is printed is read.
-/

namespace Typings.Json

/-- A positive decimal number `digits · 10 ^ exponent`. -/
structure Decimal where
  digits : Nat
  exponent : Int
deriving DecidableEq, Repr

/-- A positive binary number `mantissa · 2 ^ exponent`; below a power of two the next number may be
    twice as near. -/
structure Binary where
  mantissa : Nat
  exponent : Int
  nearBelow : Bool
deriving DecidableEq, Repr

namespace Binary

/-- The fields of a double, without its sign; none for zero, infinities and the values that are no
    number. -/
def ofBits? (bits : UInt64) : Option Binary :=
  let fraction : Nat := bits.toNat % Nat.pow 2 52
  let biased : Nat := bits.toNat / Nat.pow 2 52 % 2048
  if biased == 2047 then none
  else if biased == 0 then
    if fraction == 0 then none else some ⟨fraction, -1074, false⟩
  else some ⟨Nat.pow 2 52 + fraction, (biased : Int) - 1075, fraction == 0 && biased > 1⟩

/-- The number as a fraction, all parts times four so that half the distances are whole. -/
structure Scaled where
  low : Nat
  value : Nat
  high : Nat
  denominator : Nat

/-- The number and the ends of the interval of reals that round to it. -/
def scaled (b : Binary) : Scaled :=
  let low := if b.nearBelow then 4 * b.mantissa - 1 else 4 * b.mantissa - 2
  let value := 4 * b.mantissa
  let high := 4 * b.mantissa + 2
  if b.exponent ≥ 2 then
    let s := Nat.pow 2 (b.exponent - 2).toNat
    ⟨low * s, value * s, high * s, 1⟩
  else ⟨low, value, high, Nat.pow 2 (2 - b.exponent).toNat⟩

/-- The largest `k` with `10 ^ k ≤ n / d`, for `0 < n` and numbers in the range of doubles. -/
def Scaled.magnitude (s : Scaled) : Int :=
  if s.value ≥ s.denominator then ((Nat.toDigits 10 (s.value / s.denominator)).length : Int) - 1
  else climb 400 1
where
  /-- The least power of ten that lifts the number to one. -/
  climb : Nat → Nat → Int
    | 0, k => -(k : Int)
    | fuel + 1, k => if s.value * Nat.pow 10 k ≥ s.denominator then -(k : Int) else climb fuel (k + 1)

/-- `c · 10 ^ e` lies in the rounding interval, whose ends count when the mantissa is even. -/
def Scaled.covers (s : Scaled) (ends : Bool) (c : Nat) (e : Int) : Bool :=
  let (point, unit) :=
    if e ≥ 0 then (c * Nat.pow 10 e.toNat * s.denominator, 1)
    else (c * s.denominator, Nat.pow 10 (-e).toNat)
  let low := s.low * unit
  let high := s.high * unit
  if ends then low ≤ point && point ≤ high else low < point && point < high

/-- The decimal with at most `count` digits that rounds to the number, nearest first. -/
def candidate? (b : Binary) (s : Scaled) (magnitude : Int) (count : Nat) : Option Decimal :=
  let e := magnitude - (count : Int) + 1
  let (n, d) :=
    if e ≥ 0 then (s.value, s.denominator * Nat.pow 10 e.toNat)
    else (s.value * Nat.pow 10 (-e).toNat, s.denominator)
  let below := n / d
  let ends := b.mantissa % 2 == 0
  let lowFits := s.covers ends below e && below != 0
  let highFits := s.covers ends (below + 1) e
  let twice := 2 * (n % d)
  if lowFits && highFits then
    if twice < d || (twice == d && below % 2 == 0) then some ⟨below, e⟩ else some ⟨below + 1, e⟩
  else if lowFits then some ⟨below, e⟩
  else if highFits then some ⟨below + 1, e⟩
  else none

/-- The first digit count with a candidate; seventeen digits always have one. -/
def shortest (b : Binary) : Decimal :=
  let s := b.scaled
  let magnitude := s.magnitude
  ((List.range 17).findSome? fun i => candidate? b s magnitude (i + 1)).getD
    ⟨s.value / s.denominator, 0⟩

end Binary

/-- Without the zeros at the end of its digits. -/
def Decimal.trimmed (d : Decimal) : Decimal := go 20 d
where
  /-- Drops at most `fuel` zeros. -/
  go : Nat → Decimal → Decimal
    | 0, d => d
    | fuel + 1, d =>
      if d.digits != 0 && d.digits % 10 == 0 then go fuel ⟨d.digits / 10, d.exponent + 1⟩ else d

/-- How floating-point numbers are written: positionally from `10 ^ least` up to below
    `10 ^ bound`, otherwise with a signed exponent. -/
structure FloatFormat where
  least : Int
  bound : Int

/-- Numbers from `1e-5` to below `1e16` are written out. -/
def FloatFormat.json : FloatFormat := ⟨-5, 16⟩

/-- A decimal in a given format. -/
def Decimal.render (fmt : FloatFormat) (d : Decimal) : Text :=
  let d := d.trimmed
  let digits := Text.ofNat d.digits
  let n : Int := digits.length
  -- The exponent of the leading digit.
  let lead := n - 1 + d.exponent
  if fmt.least ≤ lead && lead < fmt.bound then
    if d.exponent ≥ 0 then digits ++ List.replicate d.exponent.toNat '0' ++ ".0"
    else if lead ≥ 0 then
      digits.take (lead.toNat + 1) ++ "." ++ digits.drop (lead.toNat + 1)
    else "0." ++ List.replicate (-lead - 1).toNat '0' ++ digits
  else
    let fraction := digits.drop 1
    let mantissa := digits.take 1 ++ if fraction.isEmpty then [] else '.' :: fraction
    mantissa ++ "e" ++ (if lead < 0 then "-" else "+") ++ Text.ofNat lead.natAbs

/-- A double as text; what is no finite number is written as `null`. -/
def renderDouble (bits : UInt64) : Text :=
  let sign : Text := if bits.toNat ≥ Nat.pow 2 63 then "-" else ""
  let magnitude := bits.toNat % Nat.pow 2 63
  if magnitude == 0 then sign ++ "0.0"
  else match Binary.ofBits? bits with
    | some b => sign ++ b.shortest.render .json
    | none => "null"

end Typings.Json
