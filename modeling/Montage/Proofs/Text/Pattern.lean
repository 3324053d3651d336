import Montage.Text.Pattern

/-!
# Runs of characters in patterns

A greedy repetition of a single character takes the whole run of characters that
it accepts, if what comes after the run matches, or if nothing that comes after a
part of it does.
-/

namespace Montage.Text.Pattern

variable {β : Type} {accepts : Char → Bool}

/-- The next character is accepted. -/
def Progress.meets (accepts : Char → Bool) (progress : Progress) : Bool :=
  progress.rest.head?.any accepts

/-- After the run of accepted characters. -/
def Progress.past (accepts : Char → Bool) (progress : Progress) : Progress :=
  { progress with
    before := (progress.rest.takeWhile accepts).getLast?.or progress.before
    rest := progress.rest.dropWhile accepts }

/-- What comes after a run of accepted characters settles where the run ends: it
matches at the end of the run, or never before an accepted character. -/
def Settles (accepts : Char → Bool) (goOn : Progress → Option β) (progress : Progress) : Prop :=
  (goOn (progress.past accepts)).isSome ∨
    ∀ other : Progress, other.meets accepts = true → goOn other = none

theorem past_of_not_meets {progress : Progress} (stops : progress.meets accepts = false) :
    progress.past accepts = progress := by
  obtain ⟨before, rest, kept⟩ := progress
  cases rest with
  | nil => rfl
  | cons character rest =>
      have refused : accepts character = false := stops
      simp [Progress.past, refused]

theorem past_cons {character : Char} (accepted : accepts character = true)
    (before : Option Char) (rest : List Char) (kept : List (Nat × List Char)) :
    Progress.past accepts ⟨before, character :: rest, kept⟩ =
      Progress.past accepts ⟨some character, rest, kept⟩ := by
  simp only [Progress.past, List.takeWhile_cons_of_pos accepted,
    List.dropWhile_cons_of_pos accepted, Progress.mk.injEq, and_true]
  cases rest.takeWhile accepts <;> simp [List.getLast?_cons]

theorem run_one_of_not_meets {progress : Progress} (stops : progress.meets accepts = false)
    (goOn : Progress → Option β) : (one accepts).run progress goOn = none := by
  obtain ⟨before, rest, kept⟩ := progress
  cases rest with
  | nil => rfl
  | cons character rest =>
      have refused : accepts character = false := stops
      simp [run, refused]

theorem run_one_cons {character : Char} (accepted : accepts character = true)
    (before : Option Char) (rest : List Char) (kept : List (Nat × List Char))
    (goOn : Progress → Option β) :
    (one accepts).run ⟨before, character :: rest, kept⟩ goOn =
      goOn ⟨some character, rest, kept⟩ := by
  simp [run, accepted]

theorem rounds_one {goOn : Progress → Option β} {fuel : Nat} {before : Option Char}
    {rest : List Char} {kept : List (Nat × List Char)} (enough : rest.length ≤ fuel)
    (settles : Settles accepts goOn ⟨before, rest, kept⟩) :
    rounds (one accepts).run true fuel ⟨before, rest, kept⟩ goOn =
      goOn (Progress.past accepts ⟨before, rest, kept⟩) := by
  induction rest generalizing fuel before with
  | nil =>
      cases fuel with
      | zero => rfl
      | succ fuel => rfl
  | cons character rest induction =>
      cases fuel with
      | zero => cases enough
      | succ fuel =>
          rw [rounds]
          cases accepted : accepts character with
          | false =>
              have stops : Progress.meets accepts ⟨before, character :: rest, kept⟩ = false :=
                accepted
              simp only [if_true, run_one_of_not_meets stops, past_of_not_meets stops]
          | true =>
              rw [past_cons accepted]
              rw [Settles, past_cons accepted] at settles
              have later := induction (Nat.le_of_succ_le_succ enough) settles
              simp only [if_true, run_one_cons accepted, List.length_cons, Nat.lt_succ_self, later]
              rcases settles with matched | never
              · obtain ⟨result, found⟩ := Option.isSome_iff_exists.mp matched
                rw [found]
              · rw [never ⟨before, character :: rest, kept⟩ accepted]
                cases goOn (Progress.past accepts ⟨some character, rest, kept⟩) <;> rfl

/-- One accepted character or more, as many as there are. -/
theorem run_oneOrMore_one {goOn : Progress → Option β} {progress : Progress}
    (settles : Settles accepts goOn progress) :
    (oneOrMore true (one accepts)).run progress goOn =
      if progress.meets accepts then goOn (progress.past accepts) else none := by
  obtain ⟨before, rest, kept⟩ := progress
  rw [oneOrMore, run]
  cases rest with
  | nil => rfl
  | cons character rest =>
      cases accepted : accepts character with
      | false =>
          have stops : Progress.meets accepts ⟨before, character :: rest, kept⟩ = false := accepted
          rw [run_one_of_not_meets stops, stops, if_neg Bool.false_ne_true]
      | true =>
          have meets : Progress.meets accepts ⟨before, character :: rest, kept⟩ = true := accepted
          rw [Settles, past_cons accepted] at settles
          rw [run_one_cons accepted, run, rounds_one (Nat.le_refl _) settles, meets, if_pos rfl,
            past_cons accepted]

/-- The first match of a pattern, from left to right. -/
def firstMatch? (pattern : Pattern) : Option Char → List Char → Option Progress
  | before, [] => pattern.matchAt before []
  | before, character :: rest =>
      match pattern.matchAt before (character :: rest) with
      | some found => some found
      | none => firstMatch? pattern (some character) rest

end Montage.Text.Pattern
