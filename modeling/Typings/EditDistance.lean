import Typings.Text

/-!
# Edit distance

How far two lists are apart: the number of items to insert, to delete or to replace by another.

* `editDistance`: the distance, one row of a table at a time.
* `closest?`: the first of some candidates that is nearest to a word.

A row of the table holds the distances of all beginnings of one list from one beginning of the other,
and the next row is made from it alone. That an entry of the table is the least number of edits, and
that the candidate found is the first of the nearest, is shown in `Proofs.EditDistance`.
-/

namespace Typings

variable {α : Type} [BEq α]

/-- The rest of a row: the distances of a list with the item `x` at its end to longer and longer
    beginnings of another list.  `left` is the distance that was found last; `diagonal` and the row
    are the distances without `x`. -/
def extendRow (x : α) : (left : Nat) → List α → (diagonal : Nat) → List Nat → List Nat
  | left, y :: ys, diagonal, up :: row =>
    let here := min (min (up + 1) (left + 1)) (diagonal + if x == y then 0 else 1)
    here :: extendRow x here ys up row
  | _, _, _, _ => []

/-- The distances of a list with one more item to all beginnings of `b`, from those without it. -/
def nextRow (b : List α) (row : List Nat) (x : α) : List Nat :=
  match row with
  | [] => []
  | diagonal :: above => (diagonal + 1) :: extendRow x (diagonal + 1) b diagonal above

/-- The least number of items to insert, to delete or to replace that turns `a` into `b`. -/
def editDistance (a b : List α) : Nat :=
  (a.foldl (nextRow b) (List.range (b.length + 1))).getLast?.getD 0

/-- The first of the candidates whose bytes are nearest to those of a word, with its distance. -/
def closest? (word : Text) (candidates : List Text) : Option (Text × Nat) :=
  candidates.foldl (fun best candidate =>
    let d := editDistance word.bytes candidate.bytes
    match best with
    | some (_, least) => if d < least then some (candidate, d) else best
    | none => some (candidate, d)) none

end Typings
