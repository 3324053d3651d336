import Montage.Number.Shortest
import Montage.Value.Basic

/-!
# Values shown in messages

Messages quote a value by its plain text: a text is itself, a list shows its
elements with commas between them, and a record shows only that it is one.
Inside a list, what is null or absent leaves its place empty.  A record that
defines `toString` has no plain text, since that field is no rule for making
one.
-/

namespace Montage

namespace Value

/-- What every record without a `toString` field shows. -/
def shownRecord : String := "[object Object]"

mutual

/-- The plain text of a value, if it has one.  The flag tells whether the
value stands inside a list. -/
def shownWithin? (inList : Bool) : Value → Option String
  | .absent => some (if inList then "" else "undefined")
  | .null => some (if inList then "" else "null")
  | .boolean truth => some (if truth then "true" else "false")
  | .number value => some value.text
  | .text content => some content
  | .list elements => (shownElements? elements).map (String.intercalate ",")
  | .record fields =>
      if (field? "toString" fields).isSome then none else some shownRecord

/-- The plain texts of all elements of a list. -/
def shownElements? : List Value → Option (List String)
  | [] => some []
  | element :: rest =>
      match shownWithin? true element, shownElements? rest with
      | some first, some others => some (first :: others)
      | _, _ => none

end

/-- The plain text of a value that stands on its own. -/
def shown? (value : Value) : Option String := value.shownWithin? false

end Value

end Montage
