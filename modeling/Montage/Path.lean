/-!
# Paths

A path is a text with slashes in it.  Its parts name, from left to right, how
to go from one directory to another; where it leads without looking at any
file is a location, the list of names from the top directory down.
-/

namespace Montage

/-- A place in a tree of files: the names from the top directory down. -/
abbrev Location := List String

namespace Path

/-- What stands between the slashes of a path. -/
def splitList : List Char → List (List Char)
  | [] => [[]]
  | character :: rest =>
      if character = '/' then [] :: splitList rest
      else
        match splitList rest with
        | [] => [[character]]
        | first :: others => (character :: first) :: others

/-- The parts of a path.  Doubled slashes and those at an end leave empty
parts. -/
def parts (path : String) : List String :=
  (splitList path.toList).map String.ofList

def join (parts : List String) : String := String.intercalate "/" parts

def isAbsolute (path : String) : Bool := path.toList.head? = some '/'

def endsInSlash (path : String) : Bool := path.toList.getLast? = some '/'

/-- Where one part leads: empty ones and `.` stay, `..` goes up, and the top
directory has nothing above it. -/
def step (location : Location) (part : String) : Location :=
  if part = "" ∨ part = "." then location
  else if part = ".." then location.dropLast
  else location ++ [part]

/-- Where a list of parts leads. -/
def follow (start : Location) (parts : List String) : Location :=
  parts.foldl step start

/-- Where a path leads from a directory. -/
def resolve (directory : Location) (path : String) : Location :=
  follow (if isAbsolute path then [] else directory) (parts path)

/-- The path of a location, from the top directory on. -/
def ofLocation (location : Location) : String := "/" ++ join location

/-- The path of what segments lead to from a directory.  No segment starts
again at the top directory, and a slash at the end of the last one that is not
empty is kept. -/
def below (directory : Location) (segments : List String) : String :=
  let joined := join (segments.filter (· ≠ ""))
  let location := follow directory (parts joined)
  let slash := if endsInSlash joined && !location.isEmpty then "/" else ""
  ofLocation location ++ slash

def lastName (path : String) : String :=
  ((parts path).filter (· ≠ "")).getLastD ""

/-- A path without its last name, the slashes after it and the one before
it. -/
def beforeLastName (path : List Char) : List Char :=
  ((path.reverse.dropWhile (· = '/')).dropWhile (· ≠ '/')).tail.reverse

/-- What a path stands in.  A name alone stands in the directory `.`, and the
top directory in itself.  Of two slashes that begin a path, both are kept. -/
def parentList (path : List Char) : List Char :=
  if beforeLastName path = [] then (if path.head? = some '/' then ['/'] else ['.'])
  else if beforeLastName path = ['/'] then ['/', '/']
  else beforeLastName path

def parent (path : String) : String := String.ofList (parentList path.toList)

/-- A bound on how often one can go from a path to another one that it stands
in. -/
def reach (path : List Char) : Nat := if path = ['.'] then 0 else path.length + 1

/-- The characters from the last dot on, if there is one. -/
def fromLastDot? : List Char → Option (List Char)
  | [] => none
  | character :: rest =>
      match fromLastDot? rest with
      | some found => some found
      | none => if character = '.' then some (character :: rest) else none

/-- What a name ends in, from its last dot on.  A dot that begins the name
does not count, nor do the dots of the parent directory. -/
def suffixList (name : List Char) : List Char :=
  if name = ['.', '.'] then []
  else
    match name with
    | [] => []
    | _ :: rest => (fromLastDot? rest).getD []

/-- What the name of a path ends in, from its last dot on. -/
def extension (path : String) : String :=
  String.ofList (suffixList (lastName path).toList)

/-- The length of a name or path as a file tree counts it. -/
def size (text : String) : Nat := text.utf8ByteSize

theorem length_beforeLastName {path : List Char} (present : beforeLastName path ≠ []) :
    (beforeLastName path).length + 2 ≤ path.length := by
  have trimmed := (List.dropWhile_suffix (l := path.reverse) (· = '/')).length_le
  rw [List.length_reverse] at trimmed
  unfold beforeLastName at present ⊢
  cases named : path.reverse.dropWhile (· = '/') with
  | nil => simp [named] at present
  | cons last rest =>
      have isNamed : last ≠ '/' := by
        have head := List.head_dropWhile_not (· = '/') (l := path.reverse) (by simp [named])
        simpa [named] using head
      rw [named, List.dropWhile_cons_of_pos (by simpa using isNamed)] at present
      have left : (rest.dropWhile (· ≠ '/')).length ≤ rest.length :=
        (List.dropWhile_suffix _).length_le
      have nonempty : 0 < (rest.dropWhile (· ≠ '/')).tail.length :=
        List.length_pos_iff.mpr fun none => present (by rw [none]; rfl)
      rw [named, List.length_cons] at trimmed
      rw [List.dropWhile_cons_of_pos (by simpa using isNamed), List.length_reverse]
      rw [List.length_tail] at nonempty ⊢
      omega

/-- What a path stands in is nearer to the end of the way up, unless it is the
path itself. -/
theorem reach_parentList_lt {path : List Char} (onward : parentList path ≠ path) :
    reach (parentList path) < reach path := by
  unfold parentList at onward ⊢
  split
  · next bare =>
    rw [if_pos bare] at onward
    split at onward
    · next absolute =>
      rw [if_pos absolute]
      obtain ⟨rest, rfl⟩ := List.head?_eq_some_iff.mp absolute
      have longer := List.length_pos_iff.mpr fun none : rest = [] => onward (by rw [none])
      simp [reach]
      omega
    · next relative =>
      rw [if_neg relative]
      simp [reach, onward.symm]
  · next present =>
    have shorter := length_beforeLastName present
    have most (characters : List Char) : reach characters ≤ characters.length + 1 := by
      unfold reach
      split <;> omega
    have unlike : path ≠ ['.'] := by
      rintro rfl
      simp at shorter
    have whole : reach path = path.length + 1 := if_neg unlike
    split
    · next doubled =>
      have two := most ['/', '/']
      rw [doubled] at shorter
      simp only [List.length_cons, List.length_nil] at shorter two
      omega
    · have rest := most (beforeLastName path)
      omega

theorem reach_parent_lt {path : String} (onward : parent path ≠ path) :
    reach (parent path).toList < reach path.toList := by
  rw [parent, String.toList_ofList]
  exact reach_parentList_lt fun same => onward (by rw [parent, same, String.ofList_toList])

theorem follow_append (start : Location) (front back : List String) :
    follow start (front ++ back) = follow (follow start front) back := by
  simp [follow, List.foldl_append]

end Path

end Montage
