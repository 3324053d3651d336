import Montage.Composition.Node
import Montage.Text.Blank
import Montage.Value.Shown

/-!
# Scene documents

A scene document describes a composition tree as a value, bare or as the field
`root` of a record.  Reading it checks every place in turn and stops at the
first one that breaks a rule.
-/

namespace Montage

namespace Scene

/-- The rules for one place of a scene, in the order in which they are
checked.  The last one quotes the type that was found. -/
inductive Rule where
  | isRecord
  | offsetIsRecord
  | acrossIsFinite
  | downIsFinite
  | pathIsNotBlank
  | childrenAreListed
  | typeIsKnown (found : String)
deriving DecidableEq, Repr

/-- The types that a node can name. -/
def typeNames : List String := "resource" :: StackKind.all.map StackKind.name

def Rule.text : Rule → String
  | .isRecord => " must be an object"
  | .offsetIsRecord => ".offset must be an object with \"x\" and \"y\""
  | .acrossIsFinite => ".offset.x must be a finite number"
  | .downIsFinite => ".offset.y must be a finite number"
  | .pathIsNotBlank => ".path must be a non-empty string"
  | .childrenAreListed => ".children must be an array"
  | .typeIsKnown found =>
      ".type \"" ++ found ++ "\" is invalid. Valid: " ++
        String.intercalate ", " typeNames

/-- A broken rule and the place below the root of the tree where it is broken,
as a list of child indices.  A type that has no plain text cannot be quoted,
and then neither place nor rule is known. -/
inductive Fault where
  | broken (place : List Nat) (rule : Rule)
  | unquotable
deriving DecidableEq, Repr

/-- A fault of a child is one of its parent, one index further down. -/
def Fault.below (index : Nat) : Fault → Fault
  | .broken place rule => .broken (index :: place) rule
  | .unquotable => .unquotable

/-- A coordinate that is a finite number. -/
def finite? : Value → Option Double
  | .number value => if value.isFinite then some value else none
  | _ => none

def readOffset : Value → Except Fault Position
  | .absent => .ok .origin
  | .record fields =>
      match finite? (Value.field "x" fields) with
      | none => .error (.broken [] .acrossIsFinite)
      | some x =>
          match finite? (Value.field "y" fields) with
          | none => .error (.broken [] .downIsFinite)
          | some y => .ok ⟨x, y⟩
  | _ => .error (.broken [] .offsetIsRecord)

/-- A path with something in it besides blanks. -/
def readPath : Value → Except Fault String
  | .text path =>
      if Text.trim path = "" then .error (.broken [] .pathIsNotBlank) else .ok path
  | _ => .error (.broken [] .pathIsNotBlank)

/-- What the type of a node names. -/
inductive NodeType where
  | resource
  | stack (kind : StackKind)
deriving DecidableEq, Repr

def readType : Value → Except Fault NodeType
  | .text name =>
      if name = "resource" then .ok .resource
      else
        match StackKind.ofName? name with
        | some kind => .ok (.stack kind)
        | none => .error (.broken [] (.typeIsKnown name))
  | other =>
      match other.shown? with
      | some shown => .error (.broken [] (.typeIsKnown shown))
      | none => .error .unquotable

mutual

/-- The tree that a value writes. -/
def readNode : Value → Except Fault Node
  | .record fields => do
      let offset ← readOffset (Value.field "offset" fields)
      match ← readType (Value.field "type" fields) with
      | .resource =>
          let path ← readPath (Value.field "path" fields)
          return .resource path offset
      | .stack kind =>
          let children ← readChildren fields
          return .stack kind children offset
  | _ => .error (.broken [] .isRecord)

/-- The trees that the field `children` of a record writes. -/
def readChildren : List (String × Value) → Except Fault (List Node)
  | [] => .error (.broken [] .childrenAreListed)
  | (name, value) :: rest =>
      if name = "children" then readList value else readChildren rest

/-- The trees that the elements of a list write. -/
def readList : Value → Except Fault (List Node)
  | .list elements => readElements 0 elements
  | _ => .error (.broken [] .childrenAreListed)

/-- The trees that elements write, counting them from the given index on. -/
def readElements (index : Nat) : List Value → Except Fault (List Node)
  | [] => .ok []
  | element :: rest =>
      match readNode element with
      | .error fault => .error (fault.below index)
      | .ok first => do
          let others ← readElements (index + 1) rest
          return first :: others

end

/-- A fault of a document, and whether its tree is the field `root` of it. -/
structure Error where
  wrapped : Bool
  fault : Fault
deriving DecidableEq, Repr

/-- The path of a place: the root of the tree, then child indices. -/
def placeText (wrapped : Bool) (place : List Nat) : String :=
  (if wrapped then "scene.root" else "scene") ++
    String.join (place.map fun index => ".children[" ++ toString index ++ "]")

def Error.message (error : Error) : String :=
  match error.fault with
  | .broken place rule => placeText error.wrapped place ++ rule.text
  | .unquotable => "Cannot convert object to primitive value"

/-- The value of the field `root`, if a document has one. -/
def wrappedRoot? : Value → Option Value
  | .record fields => Value.field? "root" fields
  | _ => none

/-- The composition that a document describes. -/
def read (document : Value) : Except Error Node :=
  match wrappedRoot? document with
  | some root => (readNode root).mapError fun fault => ⟨true, fault⟩
  | none => (readNode document).mapError fun fault => ⟨false, fault⟩

end Scene

end Montage
