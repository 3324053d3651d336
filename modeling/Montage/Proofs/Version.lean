import Montage.Version
import Montage.Proofs.Text.Pattern
import Mathlib.Data.List.DropRight
import Mathlib.Data.List.TakeWhile
import Mathlib.Data.Nat.Find

/-!
# Version numbers in texts

A version number is found in a text exactly if a dot stands between two digits in it.
What is found lies around the first such dot, and it is what the first match of a
pattern reads.
-/

namespace Montage.Version

open Text (Pattern)
open Text.Pattern (Progress Settles run_one_of_not_meets run_one_cons run_oneOrMore_one)

/-! ## Dots between digits -/

/-- A dot between two digits stands in a text. -/
def ShownIn (characters : List Char) : Prop :=
  ∃ before major minor after, characters = before ++ major :: '.' :: minor :: after ∧
    major.isDigit = true ∧ minor.isDigit = true

theorem not_shownIn_nil : ¬ ShownIn [] := by
  rintro ⟨before, major, minor, after, divided, _⟩
  simp at divided

theorem ShownIn.cons {characters : List Char} (shown : ShownIn characters) (first : Char) :
    ShownIn (first :: characters) := by
  obtain ⟨before, major, minor, after, rfl, digits⟩ := shown
  exact ⟨first :: before, major, minor, after, rfl, digits⟩

/-- A dot with a digit next to it on both sides divides a text. -/
structure DividedAt (characters before after : List Char) : Prop where
  whole : characters = before ++ '.' :: after
  digitBefore : before.getLast?.any Char.isDigit = true
  digitAfter : after.head?.any Char.isDigit = true

instance (characters before after : List Char) : Decidable (DividedAt characters before after) :=
  decidable_of_iff (characters = before ++ '.' :: after ∧
      before.getLast?.any Char.isDigit = true ∧ after.head?.any Char.isDigit = true)
    ⟨fun ⟨whole, digitBefore, digitAfter⟩ => ⟨whole, digitBefore, digitAfter⟩,
      fun divided => ⟨divided.whole, divided.digitBefore, divided.digitAfter⟩⟩

theorem shownIn_iff {characters : List Char} :
    ShownIn characters ↔ ∃ before after, DividedAt characters before after := by
  constructor
  · rintro ⟨before, major, minor, after, rfl, isMajor, isMinor⟩
    exact ⟨before ++ [major], minor :: after, by simp, by simp [isMajor], by simp [isMinor]⟩
  · rintro ⟨before, after, rfl, digitBefore, digitAfter⟩
    obtain ⟨major, last, isMajor⟩ := (Option.any_eq_true _ _).mp digitBefore
    obtain ⟨minor, head, isMinor⟩ := (Option.any_eq_true _ _).mp digitAfter
    obtain ⟨front, rfl⟩ := List.getLast?_eq_some_iff.mp last
    obtain ⟨rest, rfl⟩ := List.head?_eq_some_iff.mp head
    exact ⟨front, major, minor, rest, by simp, isMajor, isMinor⟩

/-- No such dot comes earlier. -/
structure FirstDividedAt (characters before after : List Char) : Prop
    extends DividedAt characters before after where
  first : ∀ other rest, DividedAt characters other rest → before.length ≤ other.length

theorem firstDividedAt_iff {characters before after : List Char} :
    FirstDividedAt characters before after ↔
      DividedAt characters before after ∧ ∀ length < before.length,
        ¬ DividedAt characters (characters.take length) (characters.drop (length + 1)) := by
  constructor
  · rintro ⟨divided, first⟩
    refine ⟨divided, fun length shorter earlier => ?_⟩
    have longer := first _ _ earlier
    rw [List.length_take] at longer
    omega
  · rintro ⟨divided, none⟩
    refine ⟨divided, fun other rest another => ?_⟩
    by_contra shorter
    apply none other.length (Nat.lt_of_not_le shorter)
    have front : characters.take other.length = other := by simp [another.whole]
    have back : characters.drop (other.length + 1) = rest := by simp [another.whole]
    rw [front, back]
    exact another

instance (characters before after : List Char) :
    Decidable (FirstDividedAt characters before after) :=
  decidable_of_iff _ firstDividedAt_iff.symm

theorem exists_firstDividedAt {characters : List Char} (shown : ShownIn characters) :
    ∃ before after, FirstDividedAt characters before after := by
  classical
  have some : ∃ length before after,
      DividedAt characters before after ∧ before.length = length := by
    obtain ⟨before, after, divided⟩ := shownIn_iff.mp shown
    exact ⟨_, before, after, divided, rfl⟩
  obtain ⟨before, after, divided, least⟩ := Nat.find_spec some
  refine ⟨before, after, divided, fun other rest another => ?_⟩
  rw [least]
  exact Nat.find_min' some ⟨other, rest, another, rfl⟩

/-! ## The number at the start of a text -/

theorem dottedRun?_dot (rest : List Char) :
    dottedRun? ('.' :: rest) =
      if rest.head?.any Char.isDigit then
        some ('.' :: rest.takeWhile Char.isDigit, rest.dropWhile Char.isDigit)
      else none := by
  cases rest with
  | nil => rfl
  | cons first rest => cases isDigit : first.isDigit <;> simp [dottedRun?, digitRun, isDigit]

theorem dottedRun?_of_head_ne {input : List Char} (undotted : input.head? ≠ some '.') :
    dottedRun? input = none := by
  unfold dottedRun?
  split
  · exact absurd rfl undotted
  · rfl

theorem dottedRun?_isSome_iff {input : List Char} :
    (dottedRun? input).isSome ↔
      ∃ digit after, input = '.' :: digit :: after ∧ digit.isDigit = true := by
  by_cases starts : input.head? = some '.'
  · obtain ⟨rest, rfl⟩ := List.head?_eq_some_iff.mp starts
    rw [dottedRun?_dot]
    cases rest with
    | nil => simp
    | cons digit after => cases isDigit : digit.isDigit <;> simp [isDigit]
  · rw [dottedRun?_of_head_ne starts]
    constructor
    · rintro ⟨⟩
    · rintro ⟨digit, after, rfl, _⟩
      exact absurd rfl starts

theorem eq_append_of_dottedRun? {input : List Char} {found : List Char × List Char}
    (dotted : dottedRun? input = some found) : input = found.1 ++ found.2 := by
  by_cases starts : input.head? = some '.'
  · obtain ⟨rest, rfl⟩ := List.head?_eq_some_iff.mp starts
    rw [dottedRun?_dot] at dotted
    split at dotted
    · cases dotted
      rw [List.cons_append, List.takeWhile_append_dropWhile]
    · cases dotted
  · rw [dottedRun?_of_head_ne starts] at dotted
    cases dotted

theorem atStart?_eq (input : List Char) :
    atStart? input =
      if input.head?.any Char.isDigit then
        (dottedRun? (input.dropWhile Char.isDigit)).map fun minor =>
          input.takeWhile Char.isDigit ++ minor.1 ++
            ((dottedRun? minor.2).map Prod.fst).getD []
      else none := by
  cases input with
  | nil => rfl
  | cons first rest =>
    cases isDigit : first.isDigit with
    | false => simp [atStart?, digitRun, isDigit]
    | true =>
      simp only [atStart?, digitRun, List.takeWhile_cons_of_pos isDigit,
        List.dropWhile_cons_of_pos isDigit, List.head?_cons, Option.any_some, isDigit, if_true]
      cases dottedRun? (rest.dropWhile Char.isDigit) with
      | none => rfl
      | some minor =>
        cases patch : dottedRun? minor.2 with
        | none => simp [patch]
        | some patch => simp [patch]

theorem atStart?_isSome_iff {input : List Char} :
    (atStart? input).isSome ↔
      input.takeWhile Char.isDigit ≠ [] ∧
        (dottedRun? (input.dropWhile Char.isDigit)).isSome := by
  rw [atStart?_eq]
  cases input with
  | nil => simp
  | cons first rest => cases isDigit : first.isDigit <;> simp [isDigit]

/-- The digits that a text with a number at its start begins with are followed by a dot. -/
theorem exists_dividedAt_of_atStart? {input : List Char} (starts : (atStart? input).isSome) :
    ∃ after, DividedAt input (input.takeWhile Char.isDigit) after := by
  obtain ⟨present, dotted⟩ := atStart?_isSome_iff.mp starts
  obtain ⟨digit, rest, left, isDigit⟩ := dottedRun?_isSome_iff.mp dotted
  refine ⟨digit :: rest, ?_, ?_, by simp [isDigit]⟩
  · rw [← left, List.takeWhile_append_dropWhile]
  · rw [List.getLast?_eq_some_getLast present, Option.any_some]
    exact List.mem_takeWhile_imp (List.getLast_mem present)

/-! ## The first number in a text -/

/-- A dot that begins a text, and the run of digits after it, if there is one. -/
def dottedDigits : List Char → List Char
  | '.' :: rest =>
      if rest.head?.any Char.isDigit then '.' :: rest.takeWhile Char.isDigit else []
  | _ => []

/-- The runs of digits on both sides of a dot, and a third one after another dot. -/
def around (before after : List Char) : List Char :=
  before.rtakeWhile Char.isDigit ++ '.' :: after.takeWhile Char.isDigit ++
    dottedDigits (after.dropWhile Char.isDigit)

theorem dottedDigits_eq (characters : List Char) :
    dottedDigits characters = ((dottedRun? characters).map Prod.fst).getD [] := by
  by_cases starts : characters.head? = some '.'
  · obtain ⟨rest, rfl⟩ := List.head?_eq_some_iff.mp starts
    rw [dottedRun?_dot, dottedDigits]
    split <;> rfl
  · rw [dottedRun?_of_head_ne starts]
    unfold dottedDigits
    split
    · exact absurd rfl starts
    · rfl

section

variable {characters before after : List Char}

theorem atStart?_of_digits (areDigits : ∀ character ∈ before, character.isDigit = true)
    (divided : DividedAt characters before after) :
    atStart? characters = some (around before after) := by
  obtain ⟨rfl, digitBefore, digitAfter⟩ := divided
  have taken : (before ++ '.' :: after).takeWhile Char.isDigit = before := by
    rw [List.takeWhile_append_of_pos areDigits, List.takeWhile_cons_of_neg (by decide),
      List.append_nil]
  have left : (before ++ '.' :: after).dropWhile Char.isDigit = '.' :: after := by
    rw [List.dropWhile_append_of_pos areDigits, List.dropWhile_cons_of_neg (by decide)]
  have starts : (before ++ '.' :: after).head?.any Char.isDigit = true := by
    cases before with
    | nil => cases digitBefore
    | cons first rest => exact areDigits first List.mem_cons_self
  have whole : before.rtakeWhile Char.isDigit = before := by
    rw [List.rtakeWhile_eq_self_iff]
    exact areDigits
  rw [atStart?_eq, taken, left, dottedRun?_dot, if_pos starts, if_pos digitAfter, around, whole,
    dottedDigits_eq]
  rfl

/-- A version number at the start of a text begins with all that is before the
dot. -/
theorem FirstDividedAt.areDigits (first : FirstDividedAt characters before after)
    (starts : (atStart? characters).isSome) :
    ∀ character ∈ before, character.isDigit = true := by
  obtain ⟨rest, divided⟩ := exists_dividedAt_of_atStart? starts
  have starting : before <+: characters.takeWhile Char.isDigit := by
    refine List.prefix_of_prefix_length_le ?_ (List.takeWhile_prefix _) (first.first _ _ divided)
    rw [first.whole]
    exact List.prefix_append _ _
  exact fun character member => List.mem_takeWhile_imp (starting.subset member)

theorem FirstDividedAt.tail {character : Char}
    (first : FirstDividedAt (character :: characters) (character :: before) after)
    (present : before ≠ []) : FirstDividedAt characters before after := by
  obtain ⟨⟨whole, digitBefore, digitAfter⟩, least⟩ := first
  refine ⟨⟨List.tail_eq_of_cons_eq whole, ?_, digitAfter⟩, ?_⟩
  · rwa [List.getLast?_cons_of_ne_nil present] at digitBefore
  · rintro other rest ⟨otherWhole, otherBefore, otherAfter⟩
    have longer := least (character :: other) rest ⟨by rw [otherWhole]; rfl, ?_, otherAfter⟩
    · exact Nat.le_of_succ_le_succ longer
    · cases other with
      | nil => cases otherBefore
      | cons => exact otherBefore

theorem rtakeWhile_cons_of_not_all {accepts : α → Bool} {head : α} {list : List α}
    (refused : ¬ ∀ item ∈ head :: list, accepts item = true) :
    (head :: list).rtakeWhile accepts = list.rtakeWhile accepts := by
  rw [List.rtakeWhile, List.reverse_cons, List.takeWhile_append, List.rtakeWhile]
  split
  · next long =>
    have same : list.reverse.takeWhile accepts = list.reverse :=
      (List.takeWhile_prefix accepts).eq_of_length long
    have others : ∀ item ∈ list, accepts item = true := fun item member =>
      List.takeWhile_eq_self_iff.mp same item (List.mem_reverse.mpr member)
    have refusedHead : accepts head ≠ true := fun accepted =>
      refused (List.forall_mem_cons.mpr ⟨accepted, others⟩)
    rw [same, List.takeWhile_cons_of_neg refusedHead, List.append_nil]
  · rfl

theorem findList?_of_firstDividedAt (first : FirstDividedAt characters before after) :
    findList? characters = some (around before after) := by
  -- As long as not all characters before the dot are digits, no number starts at the first one.
  induction before generalizing characters with
  | nil => cases first.digitBefore
  | cons character before induction =>
      by_cases areDigits : ∀ other ∈ character :: before, other.isDigit = true
      · have starts := atStart?_of_digits areDigits first.toDividedAt
        rw [first.whole, List.cons_append] at starts ⊢
        rw [findList?, starts]
      · have absent : atStart? characters = none := by
          cases found : atStart? characters with
          | none => rfl
          | some version => exact absurd (first.areDigits (by rw [found]; rfl)) areDigits
        have present : before ≠ [] := by
          rintro rfl
          exact areDigits (List.forall_mem_singleton.mpr first.digitBefore)
        have whole := first.whole
        rw [List.cons_append] at whole
        subst whole
        rw [findList?, absent]
        dsimp only
        rw [induction (first.tail present), around, around, rtakeWhile_cons_of_not_all areDigits]

theorem shownIn_of_findList? (found : (findList? characters).isSome) : ShownIn characters := by
  induction characters with
  | nil => cases found
  | cons first rest induction =>
      rw [findList?] at found
      cases starts : atStart? (first :: rest) with
      | some version =>
          have isSome : (atStart? (first :: rest)).isSome := by rw [starts]; rfl
          obtain ⟨after, divided⟩ := exists_dividedAt_of_atStart? isSome
          exact shownIn_iff.mpr ⟨_, after, divided⟩
      | none =>
          rw [starts] at found
          exact (induction found).cons first

theorem findList?_isSome_iff : (findList? characters).isSome ↔ ShownIn characters := by
  refine ⟨shownIn_of_findList?, fun shown => ?_⟩
  obtain ⟨before, after, first⟩ := exists_firstDividedAt shown
  rw [findList?_of_firstDividedAt first]
  rfl

end

theorem find?_isSome_iff {text : String} : (find? text).isSome ↔ ShownIn text.toList := by
  rw [find?, Option.isSome_map]
  exact findList?_isSome_iff

/-! ## The pattern of a version number -/

def digit : Pattern := .one Char.isDigit

/-- A dot and digits. -/
def dotted : Pattern := .both (.char '.') (.oneOrMore true digit)

/-- Digits, and once or twice a dot and digits; as many of them as there are. -/
def number : Pattern := .sequence [.oneOrMore true digit, dotted, .optional dotted]

/-- A version number, kept as piece 1. -/
def pattern : Pattern := .keep 1 number

section

variable {β : Type} {goOn : Progress → Option β}

theorem run_dotted (matching : ∀ later, (goOn later).isSome) (before : Option Char)
    (rest : List Char) (kept : List (Nat × List Char)) :
    dotted.run ⟨before, rest, kept⟩ goOn =
      (dottedRun? rest).bind fun found => goOn ⟨found.1.getLast?, found.2, kept⟩ := by
  change (Pattern.one (· = '.')).run ⟨before, rest, kept⟩
    (fun later => (Pattern.oneOrMore true digit).run later goOn) = _
  by_cases starts : rest.head? = some '.'
  · obtain ⟨others, rfl⟩ := List.head?_eq_some_iff.mp starts
    have settles : Settles Char.isDigit goOn ⟨some '.', others, kept⟩ := .inl (matching _)
    rw [run_one_cons (by decide), digit, run_oneOrMore_one settles, dottedRun?_dot]
    change (if others.head?.any Char.isDigit then _ else _) = _
    split
    · simp [Progress.past, List.getLast?_cons]
    · rfl
  · rw [dottedRun?_of_head_ne starts]
    apply run_one_of_not_meets
    cases head : rest.head? with
    | none => simp [Progress.meets, head]
    | some first =>
      rw [head] at starts
      simpa [Progress.meets, head] using starts

theorem run_optional_dotted (matching : ∀ later, (goOn later).isSome) (before : Option Char)
    (rest : List Char) (kept : List (Nat × List Char)) :
    (Pattern.optional dotted).run ⟨before, rest, kept⟩ goOn =
      match dottedRun? rest with
      | some found => goOn ⟨found.1.getLast?, found.2, kept⟩
      | none => goOn ⟨before, rest, kept⟩ := by
  rw [Pattern.optional, Pattern.run, run_dotted matching]
  cases dottedRun? rest with
  | none => rfl
  | some found =>
      obtain ⟨result, matched⟩ := Option.isSome_iff_exists.mp
        (matching ⟨found.1.getLast?, found.2, kept⟩)
      simp only [Option.bind_some, matched]

/-- A dot cannot follow a part of the digits before it, so all of them are taken. -/
theorem run_number_eq (matching : ∀ later, (goOn later).isSome) (before : Option Char)
    (text : List Char) (kept : List (Nat × List Char)) :
    number.run ⟨before, text, kept⟩ goOn =
      if text.head?.any Char.isDigit then
        (dottedRun? (text.dropWhile Char.isDigit)).bind fun minor =>
          (Pattern.optional dotted).run ⟨minor.1.getLast?, minor.2, kept⟩ goOn
      else none := by
  let later (progress : Progress) : Option β := (Pattern.optional dotted).run progress goOn
  have laters (progress : Progress) : (later progress).isSome := by
    simp only [later, run_optional_dotted matching]
    split <;> exact matching _
  have settles : Settles Char.isDigit (dotted.run · later) ⟨before, text, kept⟩ := by
    refine .inr fun other isDigit => ?_
    dsimp only
    rw [run_dotted laters, dottedRun?_of_head_ne]
    · rfl
    · intro starts
      rw [Progress.meets, starts] at isDigit
      exact absurd isDigit (by decide)
  change (Pattern.oneOrMore true digit).run ⟨before, text, kept⟩ (dotted.run · later) = _
  rw [digit, run_oneOrMore_one settles, Progress.past, run_dotted laters]
  rfl

/-- The pattern matches at the start of a text exactly if a version number stands there,
and then reads it. -/
theorem run_number (matching : ∀ later, (goOn later).isSome) (before : Option Char)
    (text : List Char) (kept : List (Nat × List Char)) :
    (atStart? text = none ∧ number.run ⟨before, text, kept⟩ goOn = none) ∨
    ∃ version rest last, atStart? text = some version ∧ text = version ++ rest ∧
      number.run ⟨before, text, kept⟩ goOn = goOn ⟨last, rest, kept⟩ := by
  rw [atStart?_eq, run_number_eq matching]
  split
  · have whole : text = text.takeWhile Char.isDigit ++ text.dropWhile Char.isDigit :=
      List.takeWhile_append_dropWhile.symm
    cases hasMinor : dottedRun? (text.dropWhile Char.isDigit) with
    | none => exact .inl ⟨rfl, rfl⟩
    | some minor =>
        rw [eq_append_of_dottedRun? hasMinor] at whole
        rw [Option.bind_some, run_optional_dotted matching, Option.map_some]
        cases hasPatch : dottedRun? minor.2 with
        | none =>
            refine .inr ⟨_, minor.2, minor.1.getLast?, rfl, ?_, rfl⟩
            simpa using whole
        | some patch =>
            rw [eq_append_of_dottedRun? hasPatch] at whole
            refine .inr ⟨_, patch.2, patch.1.getLast?, rfl, ?_, rfl⟩
            simpa using whole
  · exact .inl ⟨rfl, rfl⟩

end

theorem matchAt_pattern (before : Option Char) (text : List Char) :
    (atStart? text = none ∧ pattern.matchAt before text = none) ∨
    ∃ version found, atStart? text = some version ∧ pattern.matchAt before text = some found ∧
      found.piece? 1 = some version := by
  let keep (later : Progress) : Option Progress :=
    some { later with kept := (1, text.take (text.length - later.rest.length)) :: later.kept }
  have matching (later : Progress) : (keep later).isSome := rfl
  change (_ ∧ number.run ⟨before, text, []⟩ keep = none) ∨
    ∃ version found, _ ∧ number.run ⟨before, text, []⟩ keep = some found ∧ _
  rcases run_number matching before text [] with
    unmatched | ⟨version, rest, last, found, whole, matched⟩
  · exact .inl unmatched
  · have read : text.take (text.length - rest.length) = version := by
      rw [whole]
      simp
    exact .inr ⟨version, _, found, matched, congrArg some read⟩

/-- The first version number in a text is what the first match of the pattern reads. -/
theorem findList?_eq_firstMatch? (before : Option Char) (text : List Char) :
    findList? text = (pattern.firstMatch? before text).bind (Progress.piece? · 1) := by
  induction text generalizing before with
  | nil =>
      rcases matchAt_pattern before [] with ⟨_, unmatched⟩ | ⟨_, _, impossible, _⟩
      · rw [Pattern.firstMatch?, unmatched]
        rfl
      · cases impossible
  | cons character rest induction =>
      rw [findList?, Pattern.firstMatch?]
      rcases matchAt_pattern before (character :: rest) with
        ⟨absent, unmatched⟩ | ⟨version, found, starts, matched, read⟩
      · rw [absent, unmatched]
        exact induction (some character)
      · rw [starts, matched]
        exact read.symm

/-! ## What is found in a text -/

/-- What is found in a text is what the first match of the pattern reads.  That is
nothing exactly if no dot stands between two digits; otherwise it is the whole run of
digits before the first such dot, the dot, the whole run of digits after it, and another
dot and run of digits exactly if they come next. -/
theorem found_around_first_dot (text : String) :
    find? text = ((pattern.firstMatch? none text.toList).bind (Progress.piece? · 1)).map
      String.ofList ∧
    (find? text = none ↔ ¬ ShownIn text.toList) ∧
    (ShownIn text.toList → ∃ before after, FirstDividedAt text.toList before after) ∧
    (∀ before after, FirstDividedAt text.toList before after →
      find? text = some (String.ofList (around before after))) := by
  refine ⟨?_, ?_, exists_firstDividedAt, ?_⟩
  · rw [find?, findList?_eq_firstMatch? none]
  · rw [← find?_isSome_iff]
    simp
  · intro before after first
    rw [find?, findList?_of_firstDividedAt first, Option.map_some]

/-- The number has four components, and there are digits and dots before it. -/
theorem three_components_found :
    ShownIn "v7..1 n10.2.30.4-3.5".toList ∧
    FirstDividedAt "v7..1 n10.2.30.4-3.5".toList "v7..1 n10".toList "2.30.4-3.5".toList ∧
    find? "v7..1 n10.2.30.4-3.5" = some "10.2.30" := by
  have first : FirstDividedAt "v7..1 n10.2.30.4-3.5".toList "v7..1 n10".toList
      "2.30.4-3.5".toList := by decide
  refine ⟨shownIn_iff.mpr ⟨_, _, first.toDividedAt⟩, first, ?_⟩
  rw [(found_around_first_dot "v7..1 n10.2.30.4-3.5").2.2.2 _ _ first]
  decide

end Montage.Version
