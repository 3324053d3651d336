import Montage.FilterGraph.Arguments
import Montage.Proofs.Number.Characters

/-!
# Reading filter expressions

A filter is handed over as a text: labels in brackets, a name with arguments,
and one more label.  This file reads such a text again, without reference to
the filter it came from, and shows that nothing but the digits of an offset is
lost on the way.
-/

namespace Montage

/-! ## Pieces of an expression -/

/-- A part of an expression: what stands between brackets, or what stands
outside of them. -/
inductive Piece where
  | label (name : List Char)
  | word (characters : List Char)
deriving DecidableEq, Repr

def Piece.characters : Piece → List Char
  | .label name => '[' :: (name ++ [']'])
  | .word characters => characters

@[simp] theorem Piece.characters_word (characters : List Char) :
    (Piece.word characters).characters = characters := rfl

/-- What has been gathered outside of brackets, unless it is nothing. -/
def wordPiece (gathered : List Char) : List Piece :=
  if gathered.isEmpty then [] else [.word gathered]

@[simp] theorem wordPiece_nil : wordPiece [] = [] := rfl

theorem wordPiece_of_ne_nil {gathered : List Char} (notEmpty : gathered ≠ []) :
    wordPiece gathered = [.word gathered] := by
  rw [wordPiece, if_neg]
  simpa using notEmpty

/-- The parts of a text of which `gathered` has been read since the last
bracket.  A bracket that is never closed makes no label. -/
def scan (inside : Bool) (gathered : List Char) : List Char → Option (List Piece)
  | [] => if inside then none else some (wordPiece gathered)
  | character :: rest =>
      if inside then
        if character = ']' then (scan false [] rest).map (.label gathered :: ·)
        else scan true (gathered ++ [character]) rest
      else
        if character = '[' then (scan true [] rest).map (wordPiece gathered ++ ·)
        else scan false (gathered ++ [character]) rest

def pieces? (text : String) : Option (List Piece) := scan false [] text.toList

theorem scan_name {name rest : List Char} (gathered : List Char)
    (closed : ']' ∉ name) :
    scan true gathered (name ++ ']' :: rest) =
      (scan false [] rest).map (.label (gathered ++ name) :: ·) := by
  induction name generalizing gathered with
  | nil => simp [scan]
  | cons character name induction =>
      have different := List.ne_of_not_mem_cons closed
      have tailClosed := List.not_mem_of_not_mem_cons closed
      have step := induction (gathered ++ [character]) tailClosed
      simpa [scan, Ne.symm different] using step

theorem scan_label {name : List Char} (gathered rest : List Char)
    (closed : ']' ∉ name) :
    scan false gathered ((Piece.label name).characters ++ rest) =
      (scan false [] rest).map (wordPiece gathered ++ .label name :: ·) := by
  have inside : scan true [] (name ++ ']' :: rest) =
      (scan false [] rest).map (.label name :: ·) := scan_name [] closed
  simp [Piece.characters, scan, inside, Function.comp_def]

theorem scan_word {word rest : List Char} (gathered : List Char)
    (unopened : '[' ∉ word) :
    scan false gathered (word ++ rest) = scan false (gathered ++ word) rest := by
  induction word generalizing gathered with
  | nil => simp
  | cons character word induction =>
      have different := List.ne_of_not_mem_cons unopened
      have tailUnopened := List.not_mem_of_not_mem_cons unopened
      have step := induction (gathered ++ [character]) tailUnopened
      simpa [scan, Ne.symm different] using step

/-! ## Names of streams -/

theorem Stream.name_numeric (stream : Stream) : Numeric stream.name.toList := by
  cases stream with
  | input slot => simpa [Stream.name] using Numeric.toDigits slot
  | stage number =>
      simpa [Stream.name] using
        Numeric.cons (rfl : isNumeric 's' = true) (.toDigits number)

/-- The stream that a name stands for: digits name an input, digits after an
`s` name a stage. -/
def Stream.read? : List Char → Option Stream
  | 's' :: digits => (readNatural? digits).map .stage
  | digits => (readNatural? digits).map .input

@[simp] theorem Stream.read?_name (stream : Stream) :
    Stream.read? stream.name.toList = some stream := by
  cases stream with
  | stage number => simp [Stream.name, Stream.read?]
  | input slot =>
      have noStage : ∀ digits, Nat.toDigits 10 slot ≠ 's' :: digits := by
        intro digits equality
        have digit : Char.isDigit 's' = true :=
          isDigit_of_mem_toDigits (equality ▸ List.mem_cons_self)
        exact absurd digit (by decide)
      have text : (Stream.input slot).name.toList = Nat.toDigits 10 slot := by
        simp [Stream.name]
      rw [text, Stream.read?, readNatural?_toDigits]
      · rfl
      · exact noStage

/-! ## Operations -/

/-- What an expression asks for, as far as its text tells. -/
inductive Action where
  | stack (axis : Axis) (count : Nat)
  | overlay (x y : String)
  | pass
deriving DecidableEq, Repr

def Operation.action : Operation → Action
  | .stack axis count => .stack axis count
  | .overlay position => .overlay position.x.text position.y.text
  | .pass => .pass

def Action.read? (word : List Char) : Option Action :=
  match (word.splitOn '=').map String.ofList with
  | [name, "inputs", count] =>
      match StackKind.ofName? name with
      | some (.linear axis) => (readNatural? count.toList).map (.stack axis)
      | _ => none
  | ["overlay", place] =>
      match (place.toList.splitOn ':').map String.ofList with
      | [x, y] => some (.overlay x y)
      | _ => none
  | ["null"] => some .pass
  | _ => none

theorem axisName_numeric (axis : Axis) : Numeric axis.name.toList := by
  cases axis <;> exact .of_all rfl

theorem placeText_numeric (number : Double) : Numeric number.text.toList := by
  rw [Double.text, String.toList_ofList]
  exact number.textList_numeric

@[simp] theorem Action.read?_text (operation : Operation) :
    Action.read? operation.text.toList = some operation.action := by
  cases operation with
  | stack axis count =>
      have text : (Operation.stack axis count).text.toList =
          axis.name.toList ++ '=' :: ("inputs".toList ++ '=' :: Nat.toDigits 10 count) := by
        simp [Operation.text]
      have parts : (Operation.stack axis count).text.toList.splitOn '=' =
          [axis.name.toList, "inputs".toList, Nat.toDigits 10 count] := by
        rw [text,
          List.splitOn_append_cons_self_of_not_mem
            ((axisName_numeric axis).not_mem rfl),
          List.splitOn_append_cons_self_of_not_mem (by decide),
          List.splitOn_eq_singleton ((Numeric.toDigits count).not_mem rfl)]
      have kind : StackKind.ofName? axis.name = some (.linear axis) :=
        StackKind.ofName?_name (.linear axis)
      simp [Action.read?, parts, kind, Operation.action]
  | overlay position =>
      let place := position.x.text.toList ++ ':' :: position.y.text.toList
      have text : (Operation.overlay position).text.toList =
          "overlay".toList ++ '=' :: place := by
        simp [Operation.text, place]
      have noEquals : '=' ∉ place := by
        simp only [place, List.mem_append, List.mem_cons, not_or]
        exact ⟨(placeText_numeric position.x).not_mem rfl, by decide,
          (placeText_numeric position.y).not_mem rfl⟩
      have parts : (Operation.overlay position).text.toList.splitOn '=' =
          ["overlay".toList, place] := by
        rw [text, List.splitOn_append_cons_self_of_not_mem (by decide),
          List.splitOn_eq_singleton noEquals]
      have places : place.splitOn ':' =
          [position.x.text.toList, position.y.text.toList] := by
        rw [List.splitOn_append_cons_self_of_not_mem
            ((placeText_numeric position.x).not_mem rfl),
          List.splitOn_eq_singleton
            ((placeText_numeric position.y).not_mem rfl)]
      simp [Action.read?, parts, places, Operation.action]
  | pass => decide

/-! ## Expressions -/

/-- A filter as far as its text tells. -/
structure Expression where
  sources : List Stream
  action : Action
  target : Stream
deriving DecidableEq, Repr

def Filter.expression (filter : Filter) : Expression :=
  { sources := filter.sources
    action := filter.operation.action
    target := .stage filter.target }

/-- Labels of what is consumed, a name with arguments, and the label of what
is provided. -/
def Expression.ofPieces? : List Piece → Option Expression
  | [.word word, .label name] => do
      let action ← Action.read? word
      let target ← Stream.read? name
      return ⟨[], action, target⟩
  | .label name :: rest => do
      let source ← Stream.read? name
      let expression ← Expression.ofPieces? rest
      return { expression with sources := source :: expression.sources }
  | _ => none

def Expression.read? (text : String) : Option Expression :=
  (pieces? text).bind Expression.ofPieces?

/-- The part that a stream's label makes. -/
def Stream.piece (stream : Stream) : Piece := .label stream.name.toList

def Filter.pieces (filter : Filter) : List Piece :=
  filter.sources.map Stream.piece ++
    [.word filter.operation.text.toList, (Stream.stage filter.target).piece]

theorem Stream.label_characters (stream : Stream) :
    stream.label.toList = stream.piece.characters := by
  simp [Stream.label, labelled, Stream.piece, Piece.characters]

theorem Filter.text_characters (filter : Filter) :
    filter.text.toList = filter.pieces.flatMap Piece.characters := by
  simp [Filter.text, Filter.pieces, Stream.label_characters, List.flatMap_map]

/-- The characters that occur in operations: those of numbers, and what
separates a name from its arguments and these from one another. -/
def isOperational (character : Char) : Bool :=
  isNumeric character || character = '=' || character = ':'

theorem isOperational_of_numeric {text : List Char} (numeric : Numeric text) :
    ∀ character ∈ text, isOperational character = true := by
  intro character member
  simp [isOperational, numeric character member]

theorem Operation.text_operational (operation : Operation) :
    ∀ character ∈ operation.text.toList, isOperational character = true := by
  intro character member
  cases operation with
  | stack axis count =>
      simp only [Operation.text, String.toList_append, List.mem_append] at member
      rcases member with (name | inputs) | digits
      · exact isOperational_of_numeric (axisName_numeric axis) character name
      · have all : "=inputs=".toList.all isOperational = true := rfl
        exact List.all_eq_true.mp all character inputs
      · rw [Nat.toString_eq_repr, Nat.toList_repr] at digits
        exact isOperational_of_numeric (Numeric.toDigits count) character digits
  | overlay position =>
      simp only [Operation.text, String.toList_append, List.mem_append] at member
      rcases member with ((name | x) | colon) | y
      · have all : "overlay=".toList.all isOperational = true := rfl
        exact List.all_eq_true.mp all character name
      · exact isOperational_of_numeric (placeText_numeric position.x) character x
      · rw [List.mem_singleton.mp colon]
        rfl
      · exact isOperational_of_numeric (placeText_numeric position.y) character y
  | pass =>
      have all : "null".toList.all isOperational = true := rfl
      exact List.all_eq_true.mp all character member

theorem Operation.not_mem_text {operation : Operation} {character : Char}
    (other : isOperational character = false) : character ∉ operation.text.toList := by
  intro member
  rw [operation.text_operational character member] at other
  cases other

theorem Operation.text_ne_nil (operation : Operation) :
    operation.text.toList ≠ [] := by
  rcases operation with ⟨_ | _, count⟩ | position | _ <;>
    simp [Operation.text, Axis.name]

theorem scan_sources (sources : List Stream) (rest : List Char) :
    scan false [] (sources.flatMap (fun source => source.piece.characters) ++ rest) =
      (scan false [] rest).map (sources.map Stream.piece ++ ·) := by
  induction sources with
  | nil => simp
  | cons source sources induction =>
      have closed : ']' ∉ source.name.toList := source.name_numeric.not_mem rfl
      rw [List.flatMap_cons, List.append_assoc, Stream.piece, scan_label [] _ closed,
        induction]
      simp [wordPiece, Function.comp_def, Stream.piece]

theorem pieces?_text (filter : Filter) : pieces? filter.text = some filter.pieces := by
  let word := filter.operation.text.toList
  let target := Stream.stage filter.target
  have unopened : '[' ∉ word := Operation.not_mem_text rfl
  have closed : ']' ∉ target.name.toList := target.name_numeric.not_mem rfl
  have text : filter.text.toList =
      filter.sources.flatMap (fun source => source.piece.characters) ++
        (word ++ (target.piece.characters ++ [])) := by
    simp [Filter.text, Stream.label_characters, List.flatMap_map, word, target]
  have wordKept : wordPiece word = [.word word] :=
    wordPiece_of_ne_nil filter.operation.text_ne_nil
  calc
    pieces? filter.text
        = (scan false [] (word ++ (target.piece.characters ++ []))).map
            (filter.sources.map Stream.piece ++ ·) := by
          rw [pieces?, text, scan_sources]
    _ = ((scan false [] []).map (wordPiece word ++ target.piece :: ·)).map
            (filter.sources.map Stream.piece ++ ·) := by
          rw [scan_word [] unopened, List.nil_append, Stream.piece,
            scan_label word [] closed]
    _ = some filter.pieces := by
          simp only [scan, wordKept, wordPiece_nil]
          rfl

theorem Expression.ofPieces?_sources (sources : List Stream) (rest : List Piece)
    {expression : Expression}
    (tail : Expression.ofPieces? rest = some expression) :
    Expression.ofPieces? (sources.map Stream.piece ++ rest) =
      some { expression with sources := sources ++ expression.sources } := by
  induction sources with
  | nil => simpa using tail
  | cons source sources induction =>
      simp [Expression.ofPieces?, Stream.piece, induction]

/-- Reading a filter's text gives back what the text tells of the filter. -/
theorem Expression.read?_text (filter : Filter) :
    Expression.read? filter.text = some filter.expression := by
  have tail : Expression.ofPieces?
      [.word filter.operation.text.toList, (Stream.stage filter.target).piece] =
        some ⟨[], filter.operation.action, .stage filter.target⟩ := by
    simp [Expression.ofPieces?, Stream.piece]
  rw [Expression.read?, pieces?_text, Option.bind_some, Filter.pieces,
    Expression.ofPieces?_sources filter.sources _ tail, List.append_nil]
  rfl

section

variable {character : Char} (other : isOperational character = false)
  (notOpening : character ≠ '[') (notClosing : character ≠ ']')

include other notOpening notClosing

theorem Stream.not_mem_label (stream : Stream) : character ∉ stream.label.toList := by
  have notNumeric : isNumeric character = false := by
    rw [isOperational, Bool.or_assoc, Bool.or_eq_false_iff] at other
    exact other.1
  have name : character ∉ stream.name.toList := stream.name_numeric.not_mem notNumeric
  simp [Stream.label_characters, Stream.piece, Piece.characters, name, notOpening, notClosing]

/-- A filter's text has no characters but brackets and those of operations. -/
theorem Filter.not_mem_text (filter : Filter) : character ∉ filter.text.toList := by
  have noLabel (stream : Stream) : character ∉ stream.piece.characters := by
    rw [← stream.label_characters]
    exact stream.not_mem_label other notOpening notClosing
  have noWord : character ∉ filter.operation.text.toList := Operation.not_mem_text other
  simp [Filter.text_characters, Filter.pieces, noLabel, noWord]

end

/-- A filter's text can stand between separators. -/
theorem Filter.separator_not_mem_text (filter : Filter) : ';' ∉ filter.text.toList :=
  filter.not_mem_text rfl (by decide) (by decide)

end Montage
