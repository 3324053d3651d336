import Montage.Proofs.CommandLine.Paste

/-!
# Words recovered from printed lines

Where programs and options are made of letters, digits and a few marks, a shell takes a
printed line apart into the words that it was made of, and meets nothing to expand on the
way.  So such lines are equal only if their words are.
-/

namespace Montage.Shell

open CommandLine (format)

/-! ## Plain words -/

/-- Letters and digits, those beyond ASCII too, and the marks of names and paths. -/
def isWordCharacter (character : Char) : Bool :=
  character.isAlphanum || 0x7F < character.toNat || character ∈ ['_', '-', '.', '/']

def IsWord (text : String) : Prop := ∀ character ∈ text.toList, isWordCharacter character = true

instance (text : String) : Decidable (IsWord text) := List.decidableBAll _ _

/-- A program and arguments of which nothing has to be quoted but what does not begin
with a dash. -/
structure Plain (program : String) (arguments : List String) : Prop where
  named : program ≠ ""
  program : IsWord program
  options : ∀ argument ∈ arguments, Dashed argument.toList → IsWord argument

theorem role_of_isWordCharacter {character : Char} (isWord : isWordCharacter character = true) :
    role character = .ordinary := by
  have absent (marks : List Char) (others : marks.all (!isWordCharacter ·) = true) :
      character ∉ marks := by
    intro listed
    have other := List.all_eq_true.mp others character listed
    rw [isWord] at other
    cases other
  have notBlank : ¬ (character = ' ' ∨ character = '\t') := by
    simpa using absent [' ', '\t'] (by decide)
  have other (mark : Char) (excluded : isWordCharacter mark = false) : character ≠ mark :=
    List.ne_of_not_mem_cons (absent [mark] (by simp [excluded]))
  rw [role, if_neg notBlank, if_neg (absent _ (by decide)), if_neg (absent _ (by decide)),
    if_neg (other '\\' (by decide)), if_neg (other '"' (by decide)),
    if_neg (other '\'' (by decide))]

theorem bare_of_isWord {text : String} (notEmpty : text ≠ "") (isWord : IsWord text) :
    Bare text.toList := by
  have first (mark : Char) (other : isWordCharacter mark = false) :
      text.toList.head? ≠ some mark := by
    intro head
    have holds := isWord mark (List.mem_of_mem_head? head)
    rw [other] at holds
    cases holds
  refine ⟨?_, fun character member => role_of_isWordCharacter (isWord character member),
    first '#' (by decide), first '~' (by decide)⟩
  simpa using notEmpty

/-! ## What is never expanded -/

/-- A dollar or a backquote where it begins an expansion: outside of quotes, or between double
quotes. -/
def Reading.Expands (reading : Reading) (character : Char) : Prop :=
  (reading.quoting = .unquoted ∨ reading.quoting = .double) ∧
    (character = '$' ∨ character = '\x60')

theorem Reading.Expands.step_eq {reading : Reading} {character : Char}
    (expands : reading.Expands character) : reading.step character = .error .expansion := by
  have isExpansion : role character = .expansion := by
    rcases expands.2 with rfl | rfl <;> decide
  rcases expands with ⟨unquoted | double, dollarOrBackquote⟩
  · rw [step, unquoted]
    simp only [isExpansion]
  · have inside : character ≠ '"' ∧ character ≠ '\\' := by
      rcases dollarOrBackquote with rfl | rfl <;> decide
    rw [step, double]
    simp only [if_neg inside.1, if_neg inside.2, if_pos dollarOrBackquote]

theorem exists_reading_of_read {line : String} {words : List String}
    (success : read line = .ok words) {before after : List Char} {character : Char}
    (divided : line.toList = before ++ character :: after) :
    ∃ reading, (Reading.fresh []).run before = .ok reading ∧ ¬ reading.Expands character := by
  rw [read_eq_ok_iff, divided] at success
  obtain ⟨reading, ran, remaining⟩ := Reading.exists_run_of_wordsOf success
  refine ⟨reading, ran, fun expands => ?_⟩
  rw [Reading.wordsOf, Reading.run, expands.step_eq] at remaining
  cases remaining

/-! ## The whole line -/

theorem Plain.read_format {program : String} {arguments : List String}
    (plain : Plain program arguments) :
    read (format program arguments) = .ok (program :: arguments) := by
  refine Shell.read_format (bare_of_isWord plain.named plain.program) ?_
  intro argument listed dashed
  refine bare_of_isWord ?_ (plain.options argument listed dashed)
  rintro rfl
  cases dashed

/-- A plain line is taken apart into its program and its arguments.  Wherever a dollar or a
backquote stands in it, a shell has come there with the next character protected.  And no
other plain words make the same line. -/
theorem printed_line_tells_words {program : String} {arguments : List String}
    (plain : Plain program arguments) :
    read (format program arguments) = .ok (program :: arguments) ∧
    (∀ before character after,
      (format program arguments).toList = before ++ character :: after →
        ∃ reading, (Reading.fresh []).run before = .ok reading ∧
          ¬ reading.Expands character) ∧
    ∀ other others, Plain other others → format other others = format program arguments →
      other = program ∧ others = arguments := by
  have success := plain.read_format
  refine ⟨success, fun before character after divided => exists_reading_of_read success divided, ?_⟩
  intro other others otherPlain same
  have otherSuccess := otherPlain.read_format
  rw [same, success, Except.ok.injEq, List.cons.injEq] at otherSuccess
  exact ⟨otherSuccess.1.symm, otherSuccess.2.symm⟩

/-- A clip whose name is full of what a shell reads, no name at all, and a name that ends a
line after a backslash. -/
def awkwardArguments : List String :=
  ["-i", "a \"$(b)\" \x60c\x60 \\", "", "#~d'\\\n"]

theorem awkwardArguments_told :
    Plain "/usr/bin/ffmpeg" awkwardArguments ∧
      read (format "/usr/bin/ffmpeg" awkwardArguments) =
        .ok ("/usr/bin/ffmpeg" :: awkwardArguments) ∧
      ∀ other others, Plain other others →
        format other others = format "/usr/bin/ffmpeg" awkwardArguments →
          other = "/usr/bin/ffmpeg" ∧ others = awkwardArguments :=
  have plain : Plain "/usr/bin/ffmpeg" awkwardArguments :=
    ⟨by decide, by decide, by decide⟩
  have told := printed_line_tells_words plain
  ⟨plain, told.1, told.2.2⟩

end Montage.Shell
