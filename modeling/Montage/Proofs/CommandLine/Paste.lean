import Montage.CommandLine.Quote
import Montage.Proofs.CommandLine.Shell

/-!
# Pasting printed command lines

An argument between double quotes is read as itself, whatever its characters
are.  An argument that begins with a dash is printed as it is, and then it is
read as itself only if it is bare.  The program is always printed as it is.
-/

namespace Montage.Shell

open CommandLine (escapeList format needsBackslash quote quoteList)

def Dashed (argument : List Char) : Prop := argument.head? = some '-'

instance (argument : List Char) : Decidable (Dashed argument) :=
  inferInstanceAs (Decidable (_ = _))

/-- An argument that is printed in a form that is read as itself. -/
def Pastable (argument : List Char) : Prop := Dashed argument → Bare argument

instance (argument : List Char) : Decidable (Pastable argument) :=
  inferInstanceAs (Decidable (_ → _))

theorem pastable_of_bare {argument : List Char} (bare : Bare argument) :
    Pastable argument := fun _ => bare

theorem quoteList_of_dashed {argument : List Char} (dashed : Dashed argument) :
    quoteList argument = argument := by
  obtain ⟨rest, rfl⟩ := List.head?_eq_some_iff.mp dashed
  rfl

theorem quoteList_of_not_dashed {argument : List Char} (undashed : ¬ Dashed argument) :
    quoteList argument = '"' :: (escapeList argument ++ ['"']) := by
  unfold quoteList
  split
  · exact absurd rfl undashed
  · rfl

/-- What is printed after the program. -/
def printed (arguments : List (List Char)) : List Char :=
  arguments.flatMap fun argument => ' ' :: quoteList argument

theorem printed_cons (argument : List Char) (rest : List (List Char)) :
    printed (argument :: rest) = ' ' :: (quoteList argument ++ printed rest) := rfl

theorem intercalate_cons_eq_printed (program : List Char) (arguments : List (List Char)) :
    [' '].intercalate (program :: arguments.map quoteList) = program ++ printed arguments := by
  induction arguments generalizing program with
  | nil => simp [printed]
  | cons argument rest induction =>
      rw [List.map_cons, List.intercalate_cons_cons, induction, printed_cons,
        List.append_assoc, List.singleton_append]

theorem format_characters (program : String) (arguments : List String) :
    (format program arguments).toList =
      program.toList ++ printed (arguments.map String.toList) := by
  have quoted : (arguments.map quote).map String.toList =
      (arguments.map String.toList).map quoteList := by
    simp [quote, Function.comp_def]
  rw [format, String.toList_intercalate, List.map_cons, quoted]
  exact intercalate_cons_eq_printed program.toList (arguments.map String.toList)

namespace Reading

variable {words : List (List Char)} {word : List Char}

/-! ## Arguments between double quotes -/

theorem run_escaped (words : List (List Char)) (word : List Char) (character : Char) :
    (⟨words, some word, .double⟩ : Reading).run
        (if needsBackslash character then ['\\', character] else [character]) =
      .ok ⟨words, some (word ++ [character]), .double⟩ := by
  split
  · next needs =>
      have loses : losesBackslash character = true := by
        simp only [needsBackslash, Bool.or_eq_true, decide_eq_true_eq] at needs
        rcases needs with ((rfl | rfl) | rfl) | rfl <;> rfl
      have notNewline : character ≠ '\n' := by
        rintro rfl
        cases loses
      have opened : (⟨words, some word, .double⟩ : Reading).step '\\' =
          .ok ⟨words, some word, .doubleBackslash⟩ := rfl
      have kept : (⟨words, some word, .doubleBackslash⟩ : Reading).step character =
          .ok ⟨words, some (word ++ [character]), .double⟩ := by
        simp [step, notNewline, loses, extend, gathered]
      rw [run_cons_of_step opened, run_cons_of_step kept, run]
  · next plain =>
      simp only [needsBackslash, Bool.or_eq_true, decide_eq_true_eq, not_or] at plain
      obtain ⟨⟨⟨noBackslash, noQuote⟩, noDollar⟩, noBackquote⟩ := plain
      have kept : (⟨words, some word, .double⟩ : Reading).step character =
          .ok ⟨words, some (word ++ [character]), .double⟩ := by
        simp [step, noBackslash, noQuote, noDollar, noBackquote, extend, gathered]
      rw [run_cons_of_step kept, run]

theorem run_escapeList (words : List (List Char)) (word characters : List Char) :
    (⟨words, some word, .double⟩ : Reading).run (escapeList characters) =
      .ok ⟨words, some (word ++ characters), .double⟩ := by
  induction characters generalizing word with
  | nil => simp [escapeList, run]
  | cons character rest induction =>
      have unfolded : escapeList (character :: rest) =
          (if needsBackslash character then ['\\', character] else [character]) ++
            escapeList rest := rfl
      rw [unfolded, run_append, run_escaped]
      change run _ _ = _
      rw [induction, List.append_assoc, List.singleton_append]

theorem run_quoted (words : List (List Char)) (argument : List Char) :
    (fresh words).run ('"' :: (escapeList argument ++ ['"'])) =
      .ok ⟨words, some argument, .unquoted⟩ := by
  have opened : (fresh words).step '"' = .ok ⟨words, some [], .double⟩ := rfl
  rw [run_cons_of_step opened, run_append, run_escapeList, List.nil_append]
  rfl

/-! ## All arguments -/

theorem run_quoteList_iff (words : List (List Char)) (argument : List Char) :
    (fresh words).run (quoteList argument) = .ok ⟨words, some argument, .unquoted⟩ ↔
      Pastable argument := by
  by_cases dashed : Dashed argument
  · rw [quoteList_of_dashed dashed, run_eq_iff_bare]
    exact ⟨pastable_of_bare, fun pastable => pastable dashed⟩
  · rw [quoteList_of_not_dashed dashed]
    exact ⟨fun _ isDashed => absurd isDashed dashed, fun _ => run_quoted words argument⟩

theorem wordsOf_blank (words : List (List Char)) (word rest : List Char) :
    (⟨words, some word, .unquoted⟩ : Reading).wordsOf (' ' :: rest) =
      (fresh (words ++ [word])).wordsOf rest := rfl

/-- What is printed is nothing, or begins with a blank that is a separator. -/
theorem printed_cases (arguments : List (List Char)) :
    printed arguments = [] ∨ ∃ between rest, printed arguments = ' ' :: (between ++ rest) ∧
      ' ' ∈ ' ' :: between ∧ ∀ character ∈ between, role character ≠ .blank := by
  cases arguments with
  | nil => exact .inl rfl
  | cons argument rest =>
      exact .inr ⟨[], quoteList argument ++ printed rest, rfl, List.mem_cons_self, by simp⟩

theorem pastable_of_wordsOf {argument : List Char} {rest others : List (List Char)}
    (success : (fresh words).wordsOf (quoteList argument ++ printed rest) =
      .ok (words ++ argument :: others)) : Pastable argument := by
  intro dashed
  rw [quoteList_of_dashed dashed] at success
  obtain ⟨text, rfl⟩ := List.head?_eq_some_iff.mp dashed
  -- After the dash a word has begun, so no blank is lost any more.
  have begun : (fresh words).step '-' = .ok ⟨words, some ['-'], .unquoted⟩ := rfl
  have remaining : (⟨words, some ['-'], .unquoted⟩ : Reading).wordsOf
      (text ++ printed rest) = .ok (words ++ (['-'] ++ text) :: others) := by
    rw [List.cons_append, wordsOf, run_cons_of_step begun] at success
    exact success
  have ran := run_eq_of_wordsOf rfl (.inr ⟨rfl, rfl⟩) (printed_cases rest) remaining
  rw [← run_eq_iff_bare words, run_cons_of_step begun, ran]
  rfl

theorem wordsOf_printed_iff (words : List (List Char)) (word : List Char)
    (arguments : List (List Char)) :
    (⟨words, some word, .unquoted⟩ : Reading).wordsOf (printed arguments) =
        .ok (words ++ word :: arguments) ↔
      ∀ argument ∈ arguments, Pastable argument := by
  induction arguments generalizing words word with
  | nil => exact ⟨fun _ => by simp, fun _ => rfl⟩
  | cons argument rest induction =>
      have regroup : words ++ word :: argument :: rest =
          (words ++ [word]) ++ argument :: rest := by simp
      rw [printed_cons, wordsOf_blank, regroup, List.forall_mem_cons]
      constructor
      · intro success
        have pastable := pastable_of_wordsOf success
        rw [wordsOf_append ((run_quoteList_iff _ _).mpr pastable), induction] at success
        exact ⟨pastable, success⟩
      · rintro ⟨pastable, others⟩
        rw [wordsOf_append ((run_quoteList_iff _ _).mpr pastable)]
        exact (induction _ _).mpr others

end Reading

open Reading

/-! ## The whole line -/

theorem read_eq_ok_iff {line : String} {words : List String} :
    read line = .ok words ↔
      (fresh []).wordsOf line.toList = .ok (words.map String.toList) := by
  rw [read]
  cases (fresh []).wordsOf line.toList with
  | error interruption => simp [Except.map]
  | ok found =>
      simp only [Except.map, Except.ok.injEq]
      constructor
      · rintro rfl
        simp [Function.comp_def]
      · rintro rfl
        simp [Function.comp_def]

theorem read_format {program : String} {arguments : List String}
    (bare : Bare program.toList)
    (pastable : ∀ argument ∈ arguments, Pastable argument.toList) :
    read (format program arguments) = .ok (program :: arguments) := by
  rw [read_eq_ok_iff, format_characters, wordsOf_append (run_bare bare [])]
  exact (wordsOf_printed_iff [] _ _).mpr (by simpa using pastable)

/-- A line whose first argument is an option is read as the program and its
arguments only if the program is bare and the arguments are pastable.  The
option's dash is what a quotation in the program's name cannot lose. -/
theorem read_format_iff (program : String) {first : String} (rest : List String)
    (dashed : Dashed first.toList) :
    read (format program (first :: rest)) = .ok (program :: first :: rest) ↔
      Bare program.toList ∧ ∀ argument ∈ first :: rest, Pastable argument.toList := by
  refine ⟨?_, fun ⟨bare, pastable⟩ => read_format bare pastable⟩
  intro success
  rw [read_eq_ok_iff, format_characters] at success
  obtain ⟨option, optionText⟩ := List.head?_eq_some_iff.mp dashed
  have separated : printed ((first :: rest).map String.toList) =
      ' ' :: (['-'] ++ (option ++ printed (rest.map String.toList))) := by
    rw [List.map_cons, printed_cons, quoteList_of_dashed dashed, optionText]
    rfl
  have ran : (fresh []).run program.toList = .ok ⟨[], some program.toList, .unquoted⟩ :=
    run_eq_of_wordsOf rfl (.inl rfl)
      (.inr ⟨['-'], _, separated, by decide, List.forall_mem_singleton.mpr (by decide)⟩)
      success
  have bare := (run_eq_iff_bare [] program.toList).mp ran
  rw [wordsOf_append (run_bare bare [])] at success
  have pastable := (wordsOf_printed_iff [] _ _).mp success
  exact ⟨bare, by simpa using pastable⟩

end Montage.Shell
