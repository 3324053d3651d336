import Montage.Composition.Error

/-!
# Building compositions

Stacks are built from any mix of nodes, groups, reusable videos and entries
that are skipped.  All of these flatten into the ordered list of nodes that
they contribute; a node itself is never taken apart.
-/

namespace Montage

/-- Something that contributes nodes to a composition.  A video contributes
what its body does. -/
inductive Composable where
  | skipped
  | node (node : Node)
  | group (items : List Composable)
  | video (body : Composable)
deriving Repr, Inhabited

mutual

def Composable.nodes : Composable → List Node
  | .skipped => []
  | .node node => [node]
  | .group items => flatten items
  | .video body => body.nodes

def flatten : List Composable → List Node
  | [] => []
  | item :: rest => item.nodes ++ flatten rest

end

def resource (path : String) : Node := .resource path .origin

def resourceAt (path : String) (offset : Position) : Node := .resource path offset

/-- A stack of everything that its items contribute. -/
def stack (kind : StackKind) (items : List Composable) : Node :=
  .stack kind (flatten items) .origin

def hstack (items : List Composable) : Node := stack (.linear .horizontal) items

def vstack (items : List Composable) : Node := stack (.linear .vertical) items

def zstack (items : List Composable) : Node := stack .layered items

/-- The single node that a body contributes. -/
def rootOf (body : Composable) : Except CompositionError Node :=
  match body.nodes with
  | [] => .error .emptyBody
  | [root] => .ok root
  | _ :: _ :: rest => .error (.multipleRoots (rest.length + 2))

theorem rootOf_eq_ok_iff (body : Composable) (root : Node) :
    rootOf body = .ok root ↔ body.nodes = [root] := by
  unfold rootOf
  split <;> simp_all

end Montage
