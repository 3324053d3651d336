import Montage.Text.Blank

/-!
# Patterns

A pattern describes texts piece by piece.  Where it leaves a choice, it says
which possibility comes first, and the first one that lets the whole pattern
match is taken.
-/

namespace Montage.Text

/-- A pattern.  Repetitions try many rounds first if they are greedy, few if
they are not; a kept piece can be looked up under its number. -/
inductive Pattern where
  | one (accepts : Char → Bool)
  | lineStart
  | lineEnd
  | done
  | both (first second : Pattern)
  | either (first second : Pattern)
  | many (greedy : Bool) (body : Pattern)
  | keep (number : Nat) (body : Pattern)

namespace Pattern

/-- Line feed, carriage return and the two Unicode separators end a line. -/
def endsLine (character : Char) : Bool :=
  character = '\n' || character = '\r' || character = '\u2028' || character = '\u2029'

/-- How far a match has come: the character before, the text to come, and the
pieces kept so far, the latest first. -/
structure Progress where
  before : Option Char
  rest : List Char
  kept : List (Nat × List Char)

/-- Rounds of a repetition, as many as the fuel allows.  A round that reads
nothing ends it. -/
def rounds (body : Progress → (Progress → Option β) → Option β) (greedy : Bool) :
    Nat → Progress → (Progress → Option β) → Option β
  | 0, progress, goOn => goOn progress
  | fuel + 1, progress, goOn =>
      let another : Unit → Option β := fun _ =>
        body progress fun later =>
          if later.rest.length < progress.rest.length then
            rounds body greedy fuel later goOn
          else none
      if greedy then
        match another () with
        | some result => some result
        | none => goOn progress
      else
        match goOn progress with
        | some result => some result
        | none => another ()

/-- Matches a pattern and goes on with what comes after it. -/
def run : Pattern → Progress → (Progress → Option β) → Option β
  | .one accepts, progress, goOn =>
      match progress.rest with
      | [] => none
      | character :: rest =>
          if accepts character then goOn { progress with before := some character, rest }
          else none
  | .lineStart, progress, goOn =>
      if progress.before.all endsLine then goOn progress else none
  | .lineEnd, progress, goOn =>
      if progress.rest.head?.all endsLine then goOn progress else none
  | .done, progress, goOn => goOn progress
  | .both first second, progress, goOn =>
      first.run progress fun later => second.run later goOn
  | .either first second, progress, goOn =>
      match first.run progress goOn with
      | some result => some result
      | none => second.run progress goOn
  | .many greedy body, progress, goOn =>
      rounds body.run greedy progress.rest.length progress goOn
  | .keep number body, progress, goOn =>
      body.run progress fun later =>
        let piece := progress.rest.take (progress.rest.length - later.rest.length)
        goOn { later with kept := (number, piece) :: later.kept }

def sequence (patterns : List Pattern) : Pattern := patterns.foldr .both .done

def oneOrMore (greedy : Bool) (body : Pattern) : Pattern := .both body (.many greedy body)

def optional (body : Pattern) : Pattern := .either body .done

def char (character : Char) : Pattern := .one (· = character)

def except (characters : List Char) : Pattern :=
  .one fun character => !characters.contains character

def inLine : Pattern := .one fun character => !endsLine character

def blank : Pattern := .one isBlank

/-- Matches a pattern at the start of a text. -/
def matchAt (pattern : Pattern) (before : Option Char) (text : List Char) : Option Progress :=
  pattern.run ⟨before, text, []⟩ some

/-- A kept piece. -/
def Progress.piece? (progress : Progress) (number : Nat) : Option (List Char) :=
  (progress.kept.find? fun entry => entry.1 = number).map Prod.snd

/-- All matches of a pattern in a text, from left to right, none overlapping
another.  A match that reads nothing is passed over. -/
def allMatches (pattern : Pattern) : Nat → Option Char → List Char → List Progress
  | 0, _, _ => []
  | _ + 1, _, [] => []
  | fuel + 1, before, character :: rest =>
      match pattern.matchAt before (character :: rest) with
      | some found =>
          if found.rest.length ≤ rest.length then
            found :: allMatches pattern fuel found.before found.rest
          else allMatches pattern fuel (some character) rest
      | none => allMatches pattern fuel (some character) rest

/-- A text with every match of a pattern replaced. -/
def replaceAll (pattern : Pattern) (replacement : Progress → List Char) :
    Nat → Option Char → List Char → List Char
  | 0, _, text => text
  | _ + 1, _, [] => []
  | fuel + 1, before, character :: rest =>
      match pattern.matchAt before (character :: rest) with
      | some found =>
          if found.rest.length ≤ rest.length then
            replacement found ++ replaceAll pattern replacement fuel found.before found.rest
          else character :: replaceAll pattern replacement fuel (some character) rest
      | none => character :: replaceAll pattern replacement fuel (some character) rest

end Pattern

end Montage.Text
