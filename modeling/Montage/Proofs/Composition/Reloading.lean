import Montage.Proofs.Composition.Desugaring
import Montage.Proofs.Composition.Settling
import Montage.Proofs.Scene.Loading
import Montage.Proofs.Text.Utf8
import Montage.Proofs.Value.Reloading

/-!
# Compositions kept as scenes

What is written with finite offsets and paths that are not blank builds trees that can
be stored.  A file that holds the text of such a tree is a scene, and the tree that is
loaded from it has the same graph.
-/

namespace Montage

namespace Builder

mutual

/-- A term names finite offsets only, and no blank path. -/
def Term.Storable : Term → Prop
  | .resource path offset => Text.trim path ≠ "" ∧ ∀ given ∈ offset, given.IsFinite
  | .stack _ arguments => AllStorable arguments
  | .placed term offset => term.Storable ∧ offset.IsFinite

def Argument.Storable : Argument → Prop
  | .skipped => True
  | .term term => term.Storable
  | .group arguments => AllStorable arguments
  | .video body => body.Storable

def AllStorable : List Argument → Prop
  | [] => True
  | argument :: rest => argument.Storable ∧ AllStorable rest

end

mutual

theorem Term.Storable.node {term : Term} (storable : term.Storable) : term.node.Storable := by
  cases term with
  | resource path offset =>
      rw [Term.Storable] at storable
      obtain ⟨notBlank, finite⟩ := storable
      cases offset with
      | none => exact Node.storable_resource_iff.mpr ⟨Position.origin_isFinite, notBlank⟩
      | some given => exact Node.storable_resource_iff.mpr ⟨finite given rfl, notBlank⟩
  | stack kind arguments =>
      rw [Term.Storable] at storable
      exact Node.storable_stack_iff.mpr ⟨Position.origin_isFinite, storable.flatten⟩
  | placed term offset =>
      rw [Term.Storable] at storable
      exact Node.storable_place storable.1.node storable.2

theorem Argument.Storable.nodes {argument : Argument} (storable : argument.Storable) :
    ∀ node ∈ argument.composable.nodes, node.Storable := by
  cases argument with
  | skipped =>
      intro node member
      cases member
  | term term =>
      rw [Argument.Storable] at storable
      exact List.forall_mem_singleton.mpr storable.node
  | group arguments =>
      rw [Argument.Storable] at storable
      exact storable.flatten
  | video body =>
      rw [Argument.Storable] at storable
      exact storable.nodes

theorem AllStorable.flatten {arguments : List Argument} (storable : AllStorable arguments) :
    ∀ node ∈ flatten (composables arguments), node.Storable := by
  cases arguments with
  | nil =>
      intro node member
      cases member
  | cons argument rest =>
      rw [AllStorable] at storable
      exact List.forall_mem_append.mpr ⟨storable.1.nodes, storable.2.flatten⟩

end

theorem Argument.Storable.root {body : Argument} {root : Node} (storable : body.Storable)
    (single : rootOf body.composable = .ok root) : root.Storable := by
  have nodes := storable.nodes
  rw [(rootOf_eq_ok_iff _ _).mp single] at nodes
  exact List.forall_mem_singleton.mp nodes

end Builder

/-! ## Texts of trees -/

mutual

theorem Node.settled_toValue (node : Node) : node.toValue.settled = node.settled.toValue := by
  cases node with
  | resource path offset => rfl
  | stack kind children offset =>
      have same := settledAll_toValues children
      simp only [Node.toValue, Node.settled, Value.settled, Value.settledFields, same]
      rfl

theorem settledAll_toValues (nodes : List Node) :
    Value.settledAll (toValues nodes) = toValues (settledNodes nodes) := by
  cases nodes with
  | nil => rfl
  | cons node rest =>
      rw [toValues, Value.settledAll, node.settled_toValue, settledAll_toValues rest,
        settledNodes, toValues]

end

theorem Position.IsFinite.isJson_toValue {position : Position} (finite : position.IsFinite) :
    position.toValue.IsJson := by
  refine .record (show ["x", "y"].Nodup by decide) ?_
  rintro field (_ | ⟨_, _ | ⟨_, ⟨⟩⟩⟩)
  · exact .number finite.1
  · exact .number finite.2

mutual

theorem Node.Storable.isJson_toValue {node : Node} (storable : node.Storable) :
    node.toValue.IsJson := by
  cases node with
  | resource path offset =>
      obtain ⟨finite, _⟩ := Node.storable_resource_iff.mp storable
      refine .record (show ["type", "path", "offset"].Nodup by decide) ?_
      rintro field (_ | ⟨_, _ | ⟨_, _ | ⟨_, ⟨⟩⟩⟩⟩)
      · exact .text "resource"
      · exact .text path
      · exact finite.isJson_toValue
  | stack kind children offset =>
      obtain ⟨finite, childrenStorable⟩ := Node.storable_stack_iff.mp storable
      refine .record (show ["type", "children", "offset"].Nodup by decide) ?_
      rintro field (_ | ⟨_, _ | ⟨_, _ | ⟨_, ⟨⟩⟩⟩⟩)
      · exact .text kind.name
      · exact .list (isJson_toValues childrenStorable)
      · exact finite.isJson_toValue

theorem isJson_toValues {nodes : List Node} (storable : ∀ node ∈ nodes, node.Storable) :
    ∀ value ∈ toValues nodes, value.IsJson := by
  cases nodes with
  | nil =>
      intro value member
      cases member
  | cons node rest =>
      obtain ⟨first, others⟩ := List.forall_mem_cons.mp storable
      exact List.forall_mem_cons.mpr ⟨first.isJson_toValue, isJson_toValues others⟩

end

theorem Node.Storable.isJson_toWrappedValue {node : Node} (storable : node.Storable) :
    node.toWrappedValue.IsJson := by
  refine .record (show ["root"].Nodup by decide) ?_
  rintro field (_ | ⟨_, ⟨⟩⟩)
  exact storable.isJson_toValue

namespace Scene

/-- A scene argument names a file that holds the text of a value. -/
def HoldsText (world : World) (scene : String) (value : Value) : Prop :=
  ∃ path, Names world scene path ∧
    world.files.bytes world.directory path = .ok (Text.Utf8.encode value.write)

theorem HoldsText.holds {world : World} {scene : String} {value : Value}
    (holdsText : HoldsText world scene value) (isJson : value.IsJson) :
    Holds world scene value.settled := by
  obtain ⟨path, names, bytes⟩ := holdsText
  refine .intro names bytes ?_
  rw [Text.Utf8.decode_encode, Value.read?_write isJson]

/-- A storable tree is loaded from its text, bare or as the field `root`, but for the
signs of zeros. -/
theorem describes_of_holdsText {world : World} {scene : String} {tree : Node}
    (storable : tree.Storable)
    (holdsText : HoldsText world scene tree.toValue ∨ HoldsText world scene tree.toWrappedValue) :
    Describes world scene tree.settled := by
  rcases holdsText with bare | wrapped
  · have holds := bare.holds storable.isJson_toValue
    rw [tree.settled_toValue] at holds
    exact ⟨_, holds, read_toValue storable.settled⟩
  · have holds := wrapped.holds storable.isJson_toWrappedValue
    have document : tree.toWrappedValue.settled = tree.settled.toWrappedValue := by
      rw [Node.toWrappedValue, Node.toWrappedValue, ← tree.settled_toValue]
      rfl
    rw [document] at holds
    exact ⟨_, holds, read_toWrappedValue storable.settled⟩

/-- Trees that can be stored are read back as they are, and reading yields no other
trees.  What a storable body builds can be kept in a file, and compiles after loading to
what it compiles to before. -/
theorem reading_yields_exactly_storable_trees :
    (∀ tree : Node, tree.Storable →
      read tree.toValue = .ok tree ∧ read tree.toWrappedValue = .ok tree) ∧
    (∀ document tree, read document = .ok tree → tree.Storable ∧ read tree.toValue = .ok tree) ∧
    (∀ tree, (∃ document, read document = .ok tree) ↔ tree.Storable) ∧
    ∀ (body : Builder.Argument) (root : Node), body.Storable →
      rootOf body.composable = .ok root →
      read root.toValue = .ok root ∧
      ∀ world scene,
        HoldsText world scene root.toValue ∨ HoldsText world scene root.toWrappedValue →
        ∃ reloaded after, load scene world = .ok reloaded after ∧ reloaded.CompilesLike root := by
  refine ⟨?_, ?_, ?_, ?_⟩
  · exact fun tree storable => ⟨read_toValue storable, read_toWrappedValue storable⟩
  · intro document tree success
    have storable := storable_of_read success
    exact ⟨storable, read_toValue storable⟩
  · intro tree
    constructor
    · rintro ⟨document, success⟩
      exact storable_of_read success
    · exact fun storable => ⟨tree.toValue, read_toValue storable⟩
  · intro body root bodyStorable single
    have storable := bodyStorable.root single
    refine ⟨read_toValue storable, fun world scene holdsText => ?_⟩
    obtain ⟨after, loaded, _⟩ := run_load_of_describes (describes_of_holdsText storable holdsText)
    exact ⟨root.settled, after, loaded, storable.compilesLike_settled⟩

/-- A recording with a logo on it. -/
def markedClip : Builder.Argument :=
  .term (.stack .layered [
    .term (.resource "clip.mp4" none),
    .skipped,
    .group [.term (.placed (.resource "logo.png" none) (.pixels 8 9))]])

def markedClipRoot : Node :=
  .stack .layered [.resource "clip.mp4" .origin, .resource "logo.png" (.pixels 8 9)] .origin

/-- A job in a directory with a file that holds the text of a tree. -/
def keptWorld : World :=
  { World.empty with
    files := (FileSystem.empty.add ["work"] .directory).add ["work", "kept.json"]
      (.file (Text.Utf8.encode markedClipRoot.toWrappedValue.write))
    directory := ["work"]
    installation := ["app"] }

theorem markedClip_kept :
    markedClip.Storable ∧ rootOf markedClip.composable = .ok markedClipRoot ∧
    HoldsText keptWorld "kept.json" markedClipRoot.toWrappedValue ∧
    ∃ reloaded after, load "kept.json" keptWorld = .ok reloaded after ∧
      reloaded.CompilesLike markedClipRoot := by
  have finite : (Position.pixels 8 9).IsFinite := ⟨by decide, by decide⟩
  have storable : markedClip.Storable := by
    simp only [markedClip, Builder.Argument.Storable, Builder.Term.Storable, Builder.AllStorable]
    exact ⟨⟨by decide, by rintro _ ⟨⟩⟩, trivial, ⟨⟨⟨by decide, by rintro _ ⟨⟩⟩, finite⟩, trivial⟩,
      trivial⟩
  have single : rootOf markedClip.composable = .ok markedClipRoot := rfl
  have holdsText : HoldsText keptWorld "kept.json" markedClipRoot.toWrappedValue :=
    ⟨_, .direct (by decide), rfl⟩
  exact ⟨storable, single, holdsText,
    (reading_yields_exactly_storable_trees.2.2.2 markedClip markedClipRoot storable single).2
      keptWorld "kept.json" (.inr holdsText)⟩

end Scene

end Montage
