import Montage.Text.Units

/-!
# Suggestions for misspelt words

A word that is not known is compared with those that are.  The nearest ones
are suggested if they are near enough: at most three edits away, and alike in
more than two fifths of the longer word.
-/

namespace Montage.CommandLine

open Text (units)

/-- One row of the table of distances: the distances of a word's beginnings
from one more letter of the other word.  The two rows above are known, `left`
is the entry to the left, and the letters before are those last passed. -/
def distanceRow (letter : Nat) (earlier : Option Nat) (left : Nat) (last : Option Nat) :
    List Nat → List Nat → List Nat → List Nat
  | target :: targets, diagonal :: above :: row, beforeRow =>
      let replaced := diagonal + if letter = target then 0 else 1
      let edited := min (min (above + 1) (left + 1)) replaced
      let swapped := earlier = some target && last = some letter
      let entry :=
        match beforeRow with
        | crossing :: _ => if swapped then min edited (crossing + 1) else edited
        | [] => edited
      let beforeRest := if last.isSome then beforeRow.drop 1 else beforeRow
      entry :: distanceRow letter earlier entry (some target) targets (above :: row) beforeRest
  | _, _, _ => []

/-- All rows of the table, from the second on, down to the last one. -/
def distanceRows (target : List Nat) (earlier : Option Nat) (index : Nat)
    (beforeRow row : List Nat) : List Nat → List Nat
  | [] => row
  | letter :: rest =>
      let next :=
        (index + 1) :: distanceRow letter earlier (index + 1) none target row beforeRow
      distanceRows target (some letter) (index + 1) row next rest

/-- The least number of letters inserted, deleted, replaced or swapped with
their neighbour that turn one word into another, no part being edited
twice. -/
def editDistance (word target : List Nat) : Nat :=
  (distanceRows target none 0 [] (List.range (target.length + 1)) word).getLastD 0

def greatestDistance : Nat := 3

/-- The distance of a candidate from a word, if it is near enough. -/
def nearness? (word candidate : List Nat) : Option Nat :=
  let length := max word.length candidate.length
  if candidate.length ≤ 1 then none
  else if greatestDistance < length - min word.length candidate.length then none
  else
    let distance := editDistance word candidate
    if distance ≤ greatestDistance ∧ 2 * length < 5 * (length - distance) then some distance
    else none

/-- The candidates nearest to a word, in alphabetical order. -/
def nearest (word : List Char) (candidates : List (List Char)) : List (List Char) :=
  let near := candidates.filterMap fun candidate =>
    (nearness? (units word) (units candidate)).map fun distance => (distance, candidate)
  match (near.map Prod.fst).min? with
  | none => []
  | some best =>
      ((near.filter fun entry => entry.1 = best).map Prod.snd).mergeSort
        fun left right => String.ofList left ≤ String.ofList right

/-- The line that suggests words in place of an unknown one.  Words with two
dashes are compared without them. -/
def suggestion (word : String) (candidates : List String) : String :=
  let isName : Bool :=
    match word.toList with
    | '-' :: '-' :: _ => true
    | _ => false
  let strip (text : String) : List Char := if isName then text.toList.drop 2 else text.toList
  let found := (nearest (strip word) (candidates.eraseDups.map strip)).map fun name =>
    (if isName then "--" else "") ++ String.ofList name
  match found with
  | [] => ""
  | [only] => "\n(Did you mean " ++ only ++ "?)"
  | several => "\n(Did you mean one of " ++ String.intercalate ", " several ++ "?)"

end Montage.CommandLine
