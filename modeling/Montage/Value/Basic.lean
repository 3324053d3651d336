import Montage.Number.Basic

/-!
# Values

A value is what a scene file, a log message or an option holds before its
shape has been checked: a JSON value, or the absence of one.
-/

namespace Montage

/-- A value of unchecked shape.  The fields of a record keep their order; a
name that occurs twice stands for its first occurrence. -/
inductive Value where
  | absent
  | null
  | boolean (truth : Bool)
  | number (value : Double)
  | text (content : String)
  | list (elements : List Value)
  | record (fields : List (String × Value))
deriving Repr, Inhabited

namespace Value

def field? (name : String) : List (String × Value) → Option Value
  | [] => none
  | (key, value) :: rest => if key = name then some value else field? name rest

/-- The field of a record with a given name, absent where there is none. -/
def field (name : String) (fields : List (String × Value)) : Value :=
  (field? name fields).getD .absent

/-- Adds a field, in the place of an earlier one of that name. -/
def setField (name : String) (value : Value) :
    List (String × Value) → List (String × Value)
  | [] => [(name, value)]
  | (key, old) :: rest =>
      if key = name then (key, value) :: rest
      else (key, old) :: setField name value rest

end Value

end Montage
