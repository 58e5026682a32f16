import Typings.Text

/-!
# Digits

* `Text.digitValue?`, `Text.number?`: digits and numbers to a base of at most sixteen.
* `Text.charOfCode?`: the character with a code written in hexadecimal.

A text that holds anything but digits to the base is no number, and neither is the empty text. A code
of half a surrogate pair is no character.
-/

namespace Typings.Text

/-- The value of a digit to a base; letters of either case go on from ten. -/
def digitValue? (base : Nat) (c : Char) : Option Nat :=
  let value : Option Nat :=
    if '0' ≤ c && c ≤ '9' then some (c.toNat - '0'.toNat)
    else if 'a' ≤ c && c ≤ 'f' then some (c.toNat - 'a'.toNat + 10)
    else if 'A' ≤ c && c ≤ 'F' then some (c.toNat - 'A'.toNat + 10)
    else none
  value.filter (· < base)

/-- The number written with digits to a base; there is at least one. -/
def number? (base : Nat) (digits : Text) : Option Nat :=
  if digits.isEmpty then none
  else digits.foldlM (fun n c => (digitValue? base c).map (n * base + ·)) 0

/-- The character with a code written in hexadecimal; half of a surrogate pair is none. -/
def charOfCode? (digits : Text) : Option Char := do
  let n ← number? 16 digits
  if n < 0xD800 || (0xE000 ≤ n && n < 0x110000) then some (Char.ofNat n) else none

end Typings.Text
