import Mathlib.Data.List.Forall2
import Mathlib.Logic.Relation
import Montage.FilterGraph.Arguments
import Montage.Proofs.FilterGraph.EmptyStack

/-!
# Desugaring written compositions

A composition is written as terms, which build nodes, and as lists of
arguments, in which groups, videos and skipped entries stand beside terms.
Step by step, a group or a video's body is put in its place and a skipped entry
is dropped, until only terms are left.  A body and what is left of it come to
the same arguments for FFmpeg or to the same fault.
-/

namespace Montage.Builder

mutual

/-- A term builds a node. -/
inductive Term where
  | resource (path : String) (offset : Option Position)
  | stack (kind : StackKind) (arguments : List Argument)
  | placed (term : Term) (offset : Position)

/-- What can stand in a list of arguments. -/
inductive Argument where
  | skipped
  | term (term : Term)
  | group (arguments : List Argument)
  | video (body : Argument)

end

/-! ## What is built -/

mutual

def Term.node : Term → Node
  | .resource path none => Montage.resource path
  | .resource path (some offset) => resourceAt path offset
  | .stack kind arguments => Montage.stack kind (composables arguments)
  | .placed term offset => term.node.place offset

def Argument.composable : Argument → Composable
  | .skipped => .skipped
  | .term term => .node term.node
  | .group arguments => .group (composables arguments)
  | .video body => .video body.composable

def composables : List Argument → List Composable
  | [] => []
  | argument :: rest => argument.composable :: composables rest

end

/-- What a body comes to: the arguments of the graph of its root. -/
def Argument.outcome (body : Argument) : Except CompositionError (List String) := do
  let root ← rootOf body.composable
  let graph ← root.compile
  return graph.arguments

/-! ## Desugaring -/

mutual

/-- One step: somewhere in a list of arguments, at any depth, a group or a
video's body is put in its place, or a skipped entry is dropped. -/
inductive Inlines : List Argument → List Argument → Prop where
  | skipped {rest : List Argument} : Inlines (.skipped :: rest) rest
  | group {arguments rest : List Argument} :
      Inlines (.group arguments :: rest) (arguments ++ rest)
  | video {body : Argument} {rest : List Argument} :
      Inlines (.video body :: rest) (body :: rest)
  | term {term changed : Term} {rest : List Argument} :
      term.Inlines changed → Inlines (.term term :: rest) (.term changed :: rest)
  | later {argument : Argument} {rest changed : List Argument} :
      Inlines rest changed → Inlines (argument :: rest) (argument :: changed)

/-- One step in the arguments of a stack inside a term. -/
inductive Term.Inlines : Term → Term → Prop where
  | stack {kind : StackKind} {arguments changed : List Argument} :
      Builder.Inlines arguments changed →
      Term.Inlines (.stack kind arguments) (.stack kind changed)
  | placed {term changed : Term} {offset : Position} :
      Term.Inlines term changed →
      Term.Inlines (.placed term offset) (.placed changed offset)

end

mutual

/-- Nothing but terms stands in any list of arguments. -/
def Term.Plain : Term → Prop
  | .resource _ _ => True
  | .stack _ arguments => AllPlain arguments
  | .placed term _ => term.Plain

def AllPlain : List Argument → Prop
  | [] => True
  | .term term :: rest => term.Plain ∧ AllPlain rest
  | _ :: _ => False

end

/-- Steps lead from arguments to terms alone. -/
def Desugars (arguments : List Argument) (terms : List Term) : Prop :=
  Relation.ReflTransGen Inlines arguments (terms.map .term) ∧
    AllPlain (terms.map .term)

mutual

def Term.desugared : Term → Term
  | .resource path offset => .resource path offset
  | .stack kind arguments => .stack kind ((termsOf arguments).map .term)
  | .placed term offset => .placed term.desugared offset

def Argument.terms : Argument → List Term
  | .skipped => []
  | .term term => [term.desugared]
  | .group arguments => termsOf arguments
  | .video body => body.terms

/-- The terms that arguments desugar to. -/
def termsOf : List Argument → List Term
  | [] => []
  | argument :: rest => argument.terms ++ termsOf rest

end

theorem termsOf_append (front back : List Argument) :
    termsOf (front ++ back) = termsOf front ++ termsOf back := by
  induction front with
  | nil => rfl
  | cons argument front induction =>
      rw [List.cons_append, termsOf, termsOf, induction, List.append_assoc]

/-! ## Each list of arguments desugars in one way -/

mutual

theorem Inlines.termsOf_eq {arguments changed : List Argument}
    (step : Inlines arguments changed) : termsOf arguments = termsOf changed := by
  cases step with
  | skipped => rfl
  | group => rw [termsOf_append]; rfl
  | video => rfl
  | term within => rw [termsOf, termsOf, Argument.terms, Argument.terms, within.desugared_eq]
  | later step => rw [termsOf, termsOf, step.termsOf_eq]

theorem Term.Inlines.desugared_eq {term changed : Term} (step : term.Inlines changed) :
    term.desugared = changed.desugared := by
  cases step with
  | stack step => rw [Term.desugared, Term.desugared, step.termsOf_eq]
  | placed step => rw [Term.desugared, Term.desugared, step.desugared_eq]

end

theorem Inlines.append {arguments changed : List Argument}
    (step : Inlines arguments changed) (rest : List Argument) :
    Inlines (arguments ++ rest) (changed ++ rest) := by
  cases step with
  | skipped => exact .skipped
  | group =>
      rw [List.append_assoc]
      exact .group
  | video => exact .video
  | term within => exact .term within
  | later step => exact .later (step.append rest)

/-- Steps of two neighbouring lists are taken one after another. -/
theorem inlined_append {front reached back finished : List Argument}
    (first : Relation.ReflTransGen Inlines front reached)
    (second : Relation.ReflTransGen Inlines back finished) :
    Relation.ReflTransGen Inlines (front ++ back) (reached ++ finished) := by
  have before : Relation.ReflTransGen Inlines (front ++ back) (reached ++ back) := by
    apply first.lift (· ++ back)
    intro _ _ step
    exact step.append back
  have after : Relation.ReflTransGen Inlines (reached ++ back) (reached ++ finished) := by
    clear first before
    induction reached with
    | nil => exact second
    | cons argument reached induction =>
        apply induction.lift (argument :: ·)
        intro _ _ step
        exact .later step
  exact before.trans after

mutual

theorem Term.inlined (term : Term) :
    Relation.ReflTransGen Term.Inlines term term.desugared := by
  cases term with
  | resource path offset => exact .refl
  | stack kind arguments =>
      apply (inlined_termsOf arguments).lift (Term.stack kind)
      intro _ _ step
      exact .stack step
  | placed term offset =>
      apply term.inlined.lift (Term.placed · offset)
      intro _ _ step
      exact .placed step

theorem Argument.inlined (argument : Argument) :
    Relation.ReflTransGen Builder.Inlines [argument] (argument.terms.map .term) := by
  cases argument with
  | skipped => exact .single .skipped
  | term term =>
      apply term.inlined.lift (fun changed => [Argument.term changed])
      intro _ _ step
      exact .term step
  | group arguments =>
      have opened : Builder.Inlines [.group arguments] (arguments ++ []) := .group
      rw [List.append_nil] at opened
      exact .head opened (inlined_termsOf arguments)
  | video body => exact .head .video body.inlined

theorem inlined_termsOf (arguments : List Argument) :
    Relation.ReflTransGen Inlines arguments ((termsOf arguments).map .term) := by
  cases arguments with
  | nil => exact .refl
  | cons argument rest =>
      rw [termsOf, List.map_append]
      exact inlined_append argument.inlined (inlined_termsOf rest)

end

theorem allPlain_append {front back : List Argument} (frontPlain : AllPlain front)
    (backPlain : AllPlain back) : AllPlain (front ++ back) := by
  induction front with
  | nil => exact backPlain
  | cons argument front induction =>
      cases argument with
      | term term => exact ⟨frontPlain.1, induction frontPlain.2⟩
      | _ => exact frontPlain.elim

mutual

theorem Term.plain_desugared (term : Term) : term.desugared.Plain := by
  cases term with
  | resource path offset => exact trivial
  | stack kind arguments => exact allPlain_termsOf arguments
  | placed term offset => exact term.plain_desugared

theorem Argument.allPlain_terms (argument : Argument) :
    AllPlain (argument.terms.map .term) := by
  cases argument with
  | skipped => exact trivial
  | term term => exact ⟨term.plain_desugared, trivial⟩
  | group arguments => exact allPlain_termsOf arguments
  | video body => exact body.allPlain_terms

theorem allPlain_termsOf (arguments : List Argument) :
    AllPlain ((termsOf arguments).map .term) := by
  cases arguments with
  | nil => exact trivial
  | cons argument rest =>
      rw [termsOf, List.map_append]
      exact allPlain_append argument.allPlain_terms (allPlain_termsOf rest)

end

mutual

theorem Term.Plain.desugared_eq {term : Term} (plain : term.Plain) :
    term.desugared = term := by
  match term with
  | .resource path offset => rfl
  | .stack kind arguments => rw [Term.desugared, map_termsOf_of_allPlain plain]
  | .placed inner offset =>
      have innerPlain : inner.Plain := plain
      rw [Term.desugared, innerPlain.desugared_eq]

theorem map_termsOf_of_allPlain {arguments : List Argument} (plain : AllPlain arguments) :
    (termsOf arguments).map .term = arguments := by
  match arguments with
  | [] => rfl
  | .term term :: rest =>
      rw [termsOf, Argument.terms, Term.Plain.desugared_eq plain.1, List.singleton_append,
        List.map_cons, map_termsOf_of_allPlain plain.2]

end

theorem termsOf_eq_of_inlined {arguments finished : List Argument}
    (steps : Relation.ReflTransGen Inlines arguments finished) :
    termsOf arguments = termsOf finished := by
  induction steps with
  | refl => rfl
  | tail _ step induction => rw [induction, step.termsOf_eq]

theorem desugars_iff {arguments : List Argument} {terms : List Term} :
    Desugars arguments terms ↔ terms = termsOf arguments := by
  constructor
  · rintro ⟨steps, plain⟩
    have finished := map_termsOf_of_allPlain plain
    rw [← termsOf_eq_of_inlined steps] at finished
    exact (List.map_injective_iff.mpr (fun _ _ => Argument.term.inj) finished).symm
  · rintro rfl
    exact ⟨inlined_termsOf arguments, allPlain_termsOf arguments⟩

/-! ## What the terms build -/

theorem flatten_composables_terms (terms : List Term) :
    flatten (composables (terms.map .term)) = terms.map Term.node := by
  induction terms with
  | nil => rfl
  | cons term terms induction =>
      rw [List.map_cons, composables, flatten, induction]
      rfl

mutual

theorem Term.node_desugared (term : Term) : term.desugared.node = term.node := by
  cases term with
  | resource path offset => rfl
  | stack kind arguments =>
      rw [Term.desugared, Term.node, Montage.stack, flatten_composables_terms,
        ← flatten_composables, Term.node, Montage.stack]
  | placed term offset => rw [Term.desugared, Term.node, Term.node, term.node_desugared]

theorem Argument.nodes_composable (argument : Argument) :
    argument.composable.nodes = argument.terms.map Term.node := by
  cases argument with
  | skipped => rfl
  | term term => rw [Argument.terms, List.map_singleton, term.node_desugared]; rfl
  | group arguments => exact flatten_composables arguments
  | video body => exact body.nodes_composable

theorem flatten_composables (arguments : List Argument) :
    flatten (composables arguments) = (termsOf arguments).map Term.node := by
  cases arguments with
  | nil => rfl
  | cons argument rest =>
      rw [composables, flatten, argument.nodes_composable, flatten_composables rest, termsOf,
        List.map_append]

end

/-! ## Stacks stay stacks -/

mutual

/-- The stacks that a term writes, each with its arguments: a stack before those
in its arguments, and these from left to right. -/
def Term.stacks : Term → List (StackKind × List Argument)
  | .resource _ _ => []
  | .stack kind arguments => (kind, arguments) :: stacksOf arguments
  | .placed term _ => term.stacks

def Argument.stacks : Argument → List (StackKind × List Argument)
  | .skipped => []
  | .term term => term.stacks
  | .group arguments => stacksOf arguments
  | .video body => body.stacks

def stacksOf : List Argument → List (StackKind × List Argument)
  | [] => []
  | argument :: rest => argument.stacks ++ stacksOf rest

end

/-- A node is the stack that is written: one of its kind, whose children are
what its own arguments desugar to. -/
def Builds (written : StackKind × List Argument) (node : Node) : Prop :=
  ∃ terms offset, Desugars written.2 terms ∧
    node = .stack written.1 (terms.map Term.node) offset

theorem builds_place {written : List (StackKind × List Argument)} {node : Node}
    (builds : List.Forall₂ Builds written (node.walk.filter Node.isStack))
    (offset : Position) :
    List.Forall₂ Builds written ((node.place offset).walk.filter Node.isStack) := by
  cases node with
  | resource path other => exact builds
  | stack kind children other =>
      rw [Node.place, Node.walk, List.filter_cons_of_pos rfl]
      rw [Node.walk, List.filter_cons_of_pos rfl] at builds
      cases builds with
      | cons root rest =>
          obtain ⟨terms, _, desugars, same⟩ := root
          cases same
          exact .cons ⟨terms, offset, desugars, rfl⟩ rest

mutual

theorem Term.builds (term : Term) :
    List.Forall₂ Builds term.stacks (term.node.walk.filter Node.isStack) := by
  cases term with
  | resource path offset => cases offset <;> exact .nil
  | stack kind arguments =>
      have root : Builds (kind, arguments)
          (.stack kind (flatten (composables arguments)) .origin) :=
        ⟨termsOf arguments, .origin, desugars_iff.mpr rfl, by rw [flatten_composables]⟩
      rw [Term.stacks, Term.node, Montage.stack, Node.walk, List.filter_cons_of_pos rfl]
      exact .cons root (builds_stacksOf arguments)
  | placed term offset => exact builds_place term.builds offset

theorem Argument.builds (argument : Argument) :
    List.Forall₂ Builds argument.stacks
      ((walkAll argument.composable.nodes).filter Node.isStack) := by
  cases argument with
  | skipped => exact .nil
  | term term =>
      have alone : walkAll (Argument.term term).composable.nodes = term.node.walk :=
        List.append_nil _
      rw [alone]
      exact term.builds
  | group arguments => exact builds_stacksOf arguments
  | video body => exact body.builds

theorem builds_stacksOf (arguments : List Argument) :
    List.Forall₂ Builds (stacksOf arguments)
      ((walkAll (flatten (composables arguments))).filter Node.isStack) := by
  cases arguments with
  | nil => exact .nil
  | cons argument rest =>
      rw [stacksOf, composables, flatten, walkAll_append, List.filter_append]
      exact List.rel_append argument.builds (builds_stacksOf rest)

end

/-- The first of the stacks that are written whose arguments desugar to nothing
is of the given kind. -/
def FirstHollow (written : List (StackKind × List Argument)) (kind : StackKind) : Prop :=
  ∃ before arguments after,
    written = before ++ (kind, arguments) :: after ∧ Desugars arguments [] ∧
      ∀ earlier ∈ before, ¬ Desugars earlier.2 []

def hollowKind? (written : StackKind × List Argument) : Option StackKind :=
  if termsOf written.2 = [] then some written.1 else none

theorem firstHollow_iff {written : List (StackKind × List Argument)} {kind : StackKind} :
    FirstHollow written kind ↔ written.findSome? hollowKind? = some kind := by
  rw [List.findSome?_eq_some_iff]
  simp only [FirstHollow, desugars_iff, hollowKind?, ite_eq_right_iff, reduceCtorEq,
    Option.ite_none_right_eq_some, Option.some.injEq, @eq_comm _ ([] : List Term)]
  constructor
  · rintro ⟨before, arguments, after, same, hollow, earlier⟩
    exact ⟨before, (kind, arguments), after, same, ⟨hollow, rfl⟩, earlier⟩
  · rintro ⟨before, ⟨_, arguments⟩, after, same, ⟨hollow, rfl⟩, earlier⟩
    exact ⟨before, arguments, after, same, hollow, earlier⟩

theorem Builds.emptyKind?_eq {written : StackKind × List Argument} {node : Node}
    (builds : Builds written node) : node.emptyKind? = hollowKind? written := by
  obtain ⟨terms, offset, desugars, rfl⟩ := builds
  rw [hollowKind?, ← desugars_iff.mp desugars]
  cases terms with
  | nil => rfl
  | cons term terms => rfl

theorem findSome?_emptyKind?_eq {written : List (StackKind × List Argument)}
    {nodes : List Node} (builds : List.Forall₂ Builds written nodes) :
    nodes.findSome? Node.emptyKind? = written.findSome? hollowKind? := by
  induction builds with
  | nil => rfl
  | cons first _ induction =>
      rw [List.findSome?_cons, List.findSome?_cons, first.emptyKind?_eq, induction]

/-! ## What a body comes to -/

theorem Argument.outcome_eq (body : Argument) :
    body.outcome =
      match body.terms with
      | [] => .error .emptyBody
      | [root] => root.node.compile.map Graph.arguments
      | _ :: _ :: rest => .error (.multipleRoots (rest.length + 2)) := by
  rw [outcome, rootOf, body.nodes_composable]
  match body.terms with
  | [] => rfl
  | [root] =>
      rw [List.map_singleton]
      change (root.node.compile >>= fun graph => pure graph.arguments) =
        root.node.compile.map Graph.arguments
      cases root.node.compile <;> rfl
  | _ :: _ :: rest =>
      rw [List.map_cons, List.map_cons]
      change Except.error (CompositionError.multipleRoots ((rest.map Term.node).length + 2)) = _
      rw [List.length_map]

/-- The faults of a body that is left with given terms: none is left, several
are, or the one that is has a stack in it with nothing to show. -/
inductive Argument.Fault (body : Argument) (terms : List Term) : CompositionError → Prop where
  | emptyBody : terms = [] → Fault body terms .emptyBody
  | multipleRoots : 2 ≤ terms.length → Fault body terms (.multipleRoots terms.length)
  | emptyStack {kind : StackKind} : terms.length = 1 → FirstHollow body.stacks kind →
      Fault body terms (.emptyStack kind)

theorem Argument.outcome_eq_error_iff (body : Argument) (error : CompositionError) :
    body.outcome = .error error ↔ body.Fault body.terms error := by
  rw [body.outcome_eq]
  match left : body.terms with
  | [] =>
      constructor
      · rintro ⟨⟩
        exact .emptyBody rfl
      · rintro (_ | several | one)
        · rfl
        · cases several
        · cases one
  | [root] =>
      have nodes : walkAll body.composable.nodes = root.node.walk := by
        rw [body.nodes_composable, left]
        exact List.append_nil _
      have builds := body.builds
      rw [nodes] at builds
      have first : root.node.firstEmpty? = body.stacks.findSome? hollowKind? := by
        rw [Node.firstEmpty?, ← findSome?_emptyKind?_filter, findSome?_emptyKind?_eq builds]
      rw [map_eq_error_iff, compile_eq_error_iff]
      simp only [first, ← firstHollow_iff]
      constructor
      · rintro ⟨kind, hollow, rfl⟩
        exact .emptyStack rfl hollow
      · rintro (nothing | several | ⟨_, hollow⟩)
        · cases nothing
        · exact absurd several (by simp)
        · exact ⟨_, hollow, rfl⟩
  | first :: second :: rest =>
      constructor
      · rintro ⟨⟩
        exact .multipleRoots (by simp)
      · rintro (nothing | _ | one)
        · cases nothing
        · rfl
        · cases one

theorem Argument.terms_group (body : Argument) :
    (Argument.group (body.terms.map .term)).terms = body.terms := by
  have plain := map_termsOf_of_allPlain body.allPlain_terms
  exact List.map_injective_iff.mpr (fun _ _ => Argument.term.inj) plain

/-- Every body desugars in exactly one way, and what is left comes to the same
arguments or the same fault.  Each stack that is written is built as a stack of
its own. -/
theorem sugar_is_eliminable (body : Argument) :
    ∃ terms, (∀ others, Desugars [body] others ↔ others = terms) ∧
      body.outcome = (Argument.group (terms.map .term)).outcome ∧
      (∀ root, terms = [root] → body.outcome = root.node.compile.map Graph.arguments) ∧
      (∀ error, body.outcome = .error error ↔ body.Fault terms error) ∧
      (2 ≤ terms.length → ∃ error, body.outcome = .error error ∧
        error.code = "MULTIPLE_ROOTS" ∧
        error.message = "Composition body has " ++ toString terms.length ++
          " top-level nodes; wrap them in a stack") ∧
      List.Forall₂ Builds body.stacks
        ((walkAll (terms.map Term.node)).filter Node.isStack) := by
  have desugars (others : List Term) : Desugars [body] others ↔ others = body.terms := by
    rw [desugars_iff, termsOf, termsOf, List.append_nil]
  have faults := body.outcome_eq_error_iff
  refine ⟨body.terms, desugars, ?_, ?_, faults, ?_, ?_⟩
  · rw [Argument.outcome_eq, Argument.outcome_eq, body.terms_group]
  · intro root left
    rw [Argument.outcome_eq, left]
  · intro several
    exact ⟨_, (faults _).mpr (.multipleRoots several), rfl, rfl⟩
  · rw [← body.nodes_composable]
    exact body.builds

end Montage.Builder
