import Montage.Number.Basic

/-!
# Composition trees

A composition is a tree of media files.  Stacks set their children side by
side, one below another, or on top of each other.  The first child of a
layered stack is its base; each later one is laid over what is below it, at
its own offset.
-/

namespace Montage

/-- A place in pixels from the top left corner. -/
structure Position where
  x : Double
  y : Double
deriving DecidableEq, Repr, Inhabited

def Position.origin : Position := ⟨.zero false, .zero false⟩

inductive Axis where
  | horizontal
  | vertical
deriving DecidableEq, Repr

inductive StackKind where
  | linear (axis : Axis)
  | layered
deriving DecidableEq, Repr

def Axis.name : Axis → String
  | .horizontal => "hstack"
  | .vertical => "vstack"

def StackKind.name : StackKind → String
  | .linear axis => axis.name
  | .layered => "zstack"

/-- The kinds of stack, in the order in which messages list them. -/
def StackKind.all : List StackKind :=
  [.linear .horizontal, .linear .vertical, .layered]

def StackKind.ofName? (name : String) : Option StackKind :=
  StackKind.all.find? fun kind => kind.name = name

theorem StackKind.ofName?_name (kind : StackKind) :
    StackKind.ofName? kind.name = some kind := by
  rcases kind with (_ | _) | _ <;> decide

/-- A composition: a media file, or a stack of compositions.  An offset
matters only where its node is laid over another. -/
inductive Node where
  | resource (path : String) (offset : Position)
  | stack (kind : StackKind) (children : List Node) (offset : Position)
deriving Repr, Inhabited

namespace Node

def offset : Node → Position
  | .resource _ offset => offset
  | .stack _ _ offset => offset

def place (offset : Position) : Node → Node
  | .resource path _ => .resource path offset
  | .stack kind children _ => .stack kind children offset

@[simp] theorem offset_place (node : Node) (offset : Position) :
    (node.place offset).offset = offset := by
  cases node <;> rfl

end Node

end Montage
