/-!
# Version numbers

A version number is two or three runs of digits with dots between them.
-/

namespace Montage.Version

/-- A run of digits at the start of a text, and the text after it. -/
def digitRun (input : List Char) : List Char × List Char :=
  (input.takeWhile Char.isDigit, input.dropWhile Char.isDigit)

/-- A dot and a run of digits at the start of a text, and the text after
them. -/
def dottedRun? : List Char → Option (List Char × List Char)
  | '.' :: rest =>
      match digitRun rest with
      | ([], _) => none
      | (digits, after) => some ('.' :: digits, after)
  | _ => none

/-- The version number at the start of a text. -/
def atStart? (input : List Char) : Option (List Char) :=
  match digitRun input with
  | ([], _) => none
  | (major, afterMajor) =>
      match dottedRun? afterMajor with
      | none => none
      | some (minor, afterMinor) =>
          match dottedRun? afterMinor with
          | none => some (major ++ minor)
          | some (patch, _) => some (major ++ minor ++ patch)

/-- The first version number in a text. -/
def findList? : List Char → Option (List Char)
  | [] => none
  | character :: rest =>
      match atStart? (character :: rest) with
      | some found => some found
      | none => findList? rest

def find? (text : String) : Option String :=
  (findList? text.toList).map String.ofList

end Montage.Version
