import Montage.Composition.Node

/-!
# Faults of a composition

A composition can be at fault in three ways: a stack has nothing to show, the
whole body has nothing to show, or the body has more than one root.
-/

namespace Montage

inductive CompositionError where
  | emptyStack (kind : StackKind)
  | emptyBody
  | multipleRoots (count : Nat)
deriving DecidableEq, Repr

namespace CompositionError

def message : CompositionError → String
  | .emptyStack kind => kind.name ++ " has no children to compose"
  | .emptyBody => "Composition body is empty"
  | .multipleRoots count =>
      "Composition body has " ++ toString count ++
        " top-level nodes; wrap them in a stack"

/-- The short code of a fault, for programs that react to it. -/
def code : CompositionError → String
  | .emptyStack _ => "EMPTY_TREE"
  | .emptyBody => "EMPTY_TREE"
  | .multipleRoots _ => "MULTIPLE_ROOTS"

end CompositionError

end Montage
