import Montage.Proofs.Computation
import Mathlib.Data.List.Count

/-!
# Reading a command line as a shell does

A shell reads a line character by character.  Blanks divide words; quotes and
backslashes keep characters from being special; what is special elsewhere
starts an expansion, an operator or a comment.  A line is one simple command
without expansions if the reader is never interrupted.

A word can stand bare in a line if it is read as itself.  These are the words
of ordinary characters only.  A word that is not bare is not read as itself
before any separator either: a quotation loses a character, and the separator
that it swallows instead is one too many.
-/

namespace Montage.Shell

/-! ## The reader -/

/-- What a character does outside of quotes. -/
inductive Role where
  | blank
  | operator
  | expansion
  | backslash
  | doubleQuote
  | singleQuote
  | ordinary
deriving DecidableEq, Repr

/-- Line ends and control characters of commands; `$` and the backquote for
values and commands; the characters of file name patterns. -/
def role (character : Char) : Role :=
  if character = ' ' ∨ character = '\t' then .blank
  else if character ∈ ['\n', ';', '&', '|', '<', '>', '(', ')'] then .operator
  else if character ∈ ['$', '\x60', '*', '?', '['] then .expansion
  else if character = '\\' then .backslash
  else if character = '"' then .doubleQuote
  else if character = '\'' then .singleQuote
  else .ordinary

/-- Why a line is not a single command of known words. -/
inductive Interruption where
  | operator
  | expansion
  | comment
  | unfinished
deriving DecidableEq, Repr

/-- How the next character is protected. -/
inductive Quoting where
  | unquoted
  | backslash
  | single
  | double
  | doubleBackslash
deriving DecidableEq, Repr

/-- What has been read: the complete words, the word that has begun, if any, and
the quoting of the next character. -/
structure Reading where
  words : List (List Char)
  word : Option (List Char)
  quoting : Quoting
deriving DecidableEq, Repr

namespace Reading

def fresh (words : List (List Char)) : Reading := ⟨words, none, .unquoted⟩

def gathered (reading : Reading) : List Char := reading.word.getD []

/-- Adds characters to a word, which begins with them if none has. -/
def extend (reading : Reading) (characters : List Char) : Reading :=
  { reading with word := some (reading.gathered ++ characters) }

def complete (reading : Reading) : Reading :=
  match reading.word with
  | none => reading
  | some word => { reading with words := reading.words ++ [word], word := none }

/-- The characters before which a backslash inside double quotes disappears. -/
def losesBackslash (character : Char) : Bool :=
  character ∈ ['$', '\x60', '"', '\\']

def step (reading : Reading) (character : Char) : Except Interruption Reading :=
  match reading.quoting with
  | .unquoted =>
      match role character with
      | .blank => .ok reading.complete
      | .operator => .error .operator
      | .expansion => .error .expansion
      | .backslash => .ok { reading with quoting := .backslash }
      | .doubleQuote => .ok { reading.extend [] with quoting := .double }
      | .singleQuote => .ok { reading.extend [] with quoting := .single }
      | .ordinary =>
          if reading.word = none ∧ character = '#' then .error .comment
          else if reading.word = none ∧ character = '~' then .error .expansion
          else .ok (reading.extend [character])
  | .backslash =>
      if character = '\n' then .ok { reading with quoting := .unquoted }
      else .ok { reading.extend [character] with quoting := .unquoted }
  | .single =>
      if character = '\'' then .ok { reading with quoting := .unquoted }
      else .ok (reading.extend [character])
  | .double =>
      if character = '"' then .ok { reading with quoting := .unquoted }
      else if character = '\\' then .ok { reading with quoting := .doubleBackslash }
      else if character = '$' ∨ character = '\x60' then .error .expansion
      else .ok (reading.extend [character])
  | .doubleBackslash =>
      if character = '\n' then .ok { reading with quoting := .double }
      else if losesBackslash character then
        .ok { reading.extend [character] with quoting := .double }
      else .ok { reading.extend ['\\', character] with quoting := .double }

def run (reading : Reading) : List Char → Except Interruption Reading
  | [] => .ok reading
  | character :: rest => do
      let next ← reading.step character
      next.run rest

def finish (reading : Reading) : Except Interruption (List (List Char)) :=
  if reading.quoting = .unquoted then .ok reading.complete.words
  else .error .unfinished

/-- The words of a line that goes on with the given characters. -/
def wordsOf (reading : Reading) (rest : List Char) :
    Except Interruption (List (List Char)) := do
  let last ← reading.run rest
  last.finish

end Reading

def read (line : String) : Except Interruption (List String) :=
  ((Reading.fresh []).wordsOf line.toList).map (List.map String.ofList)

/-- Ordinary characters, at least one, and none at the start that begins a
comment or a home directory. -/
def Bare (word : List Char) : Prop :=
  word ≠ [] ∧ (∀ character ∈ word, role character = .ordinary) ∧
    word.head? ≠ some '#' ∧ word.head? ≠ some '~'

-- The characters of the word are looked at, and not all that there are.
instance (word : List Char) : Decidable (Bare word) :=
  letI := List.decidableBAll (fun character => role character = .ordinary) word
  inferInstanceAs (Decidable (_ ∧ _))

namespace Reading

variable {reading next last : Reading} {character : Char} {front back : List Char}

theorem run_append (reading : Reading) (front back : List Char) :
    reading.run (front ++ back) = (reading.run front).bind (·.run back) := by
  induction front generalizing reading with
  | nil => rfl
  | cons character front induction =>
      rw [List.cons_append, run, run]
      cases reading.step character with
      | error interruption => rfl
      | ok next => exact induction next

theorem run_cons_of_step (stepped : reading.step character = .ok next)
    (rest : List Char) : reading.run (character :: rest) = next.run rest := by
  rw [run, stepped]
  rfl

theorem wordsOf_append (reached : reading.run front = .ok next) (back : List Char) :
    reading.wordsOf (front ++ back) = next.wordsOf back := by
  rw [wordsOf, run_append, reached]
  rfl

theorem exists_run_of_wordsOf {result : List (List Char)}
    (success : reading.wordsOf (front ++ back) = .ok result) :
    ∃ next, reading.run front = .ok next ∧ next.wordsOf back = .ok result := by
  cases reached : reading.run front with
  | error interruption =>
      rw [wordsOf, run_append, reached] at success
      cases success
  | ok next => exact ⟨next, rfl, wordsOf_append reached back ▸ success⟩

@[simp] theorem words_extend (characters : List Char) :
    (reading.extend characters).words = reading.words := rfl

theorem complete_of_word {word : List Char} (begun : reading.word = some word) :
    reading.complete = ⟨reading.words ++ [word], none, reading.quoting⟩ := by
  rw [complete, begun]

/-! ## What one character does -/

/-- The gathered characters, and a backslash that may still turn out to be one
of them. -/
def weight (reading : Reading) : Nat :=
  reading.gathered.length + if reading.quoting = .doubleBackslash then 1 else 0

theorem weight_of_unquoted (unquoted : reading.quoting = .unquoted) :
    reading.weight = reading.gathered.length := by
  simp [weight, unquoted]

/-- The separators that are followed up: they are never lost. -/
def separators : List Char := [' ', '-']

/-- A step inside a word, or to the start of one. -/
structure Grows (reading : Reading) (character : Char) (next : Reading) : Prop where
  words : next.words = reading.words
  begun : reading.word.isSome → next.word.isSome
  gathered : ∃ added, next.gathered = reading.gathered ++ added ∧
    ∀ separator ∈ separators, added.count separator = [character].count separator
  weight : next.weight ≤ reading.weight + 1
  ordinary : reading.quoting = .unquoted → next.weight = reading.weight + 1 →
    role character = .ordinary ∧
      (reading.word = none → character ≠ '#' ∧ character ≠ '~') ∧
      next = reading.extend [character]

/-- A step completes a word, or skips a blank between words, or grows a word. -/
inductive Steps (reading : Reading) (character : Char) (next : Reading) : Prop where
  | completes (word : List Char) :
      role character = .blank → reading.quoting = .unquoted →
      reading.word = some word → next = fresh (reading.words ++ [word]) →
      Steps reading character next
  | skips :
      role character = .blank → reading.quoting = .unquoted → reading.word = none →
      next = reading → Steps reading character next
  | grows : Grows reading character next → Steps reading character next

theorem ne_separator_of_role (notBlank : role character ≠ .blank)
    (notOrdinary : role character ≠ .ordinary) :
    ∀ separator ∈ separators, character ≠ separator := by
  intro separator listed
  rintro rfl
  simp only [separators, List.mem_cons, List.not_mem_nil, or_false] at listed
  rcases listed with rfl | rfl
  · exact notBlank rfl
  · exact notOrdinary rfl

theorem grows_of_lost (other : ∀ separator ∈ separators, character ≠ separator)
    (words : next.words = reading.words) (gathered : next.gathered = reading.gathered)
    (begun : reading.word.isSome → next.word.isSome)
    (weight : next.weight ≤ reading.weight + 1)
    (lighter : reading.quoting = .unquoted → next.weight ≤ reading.weight) :
    Grows reading character next := by
  refine { words, begun, gathered := ⟨[], ?_, ?_⟩, weight, ordinary := ?_ }
  · rw [gathered, List.append_nil]
  · intro separator listed
    rw [List.count_nil, List.count_singleton, if_neg]
    simpa using other separator listed
  · intro unquoted heavier
    have bound := lighter unquoted
    omega

theorem grows_of_requoted {quoting : Quoting} (quoted : reading.quoting ≠ .unquoted)
    (notBlank : role character ≠ .blank) (notOrdinary : role character ≠ .ordinary) :
    Grows reading character { reading with quoting } := by
  refine grows_of_lost (ne_separator_of_role notBlank notOrdinary) rfl rfl id ?_
    (fun unquoted => absurd unquoted quoted)
  have pending : (if quoting = .doubleBackslash then 1 else 0) ≤ 1 := by
    split <;> decide
  simp only [weight, gathered]
  omega

/-- A character inside quotes is kept, after a backslash that is kept as well. -/
theorem grows_of_kept (before : List Char) {quoting : Quoting}
    (next_eq : next = { reading.extend (before ++ [character]) with quoting })
    (quoted : reading.quoting ≠ .unquoted) (closed : quoting ≠ .doubleBackslash)
    (kept : before = [] ∨ before = ['\\'] ∧ reading.quoting = .doubleBackslash) :
    Grows reading character next := by
  subst next_eq
  refine
    { words := rfl, begun := fun _ => rfl, gathered := ⟨_, rfl, ?_⟩, weight := ?_,
      ordinary := fun unquoted => absurd unquoted quoted }
  · intro separator listed
    rcases kept with rfl | ⟨rfl, _⟩
    · rfl
    · have other : '\\' ≠ separator := ne_separator_of_role (by decide) (by decide) _ listed
      simp [List.count_cons, other]
  · rcases kept with rfl | ⟨rfl, escaped⟩
    · simp [Reading.weight, gathered, extend, closed]
    · simp [Reading.weight, gathered, extend, closed, escaped]

theorem grows_of_ordinary (ordinary : role character = .ordinary)
    (start : reading.word = none → character ≠ '#' ∧ character ≠ '~') :
    Grows reading character (reading.extend [character]) := by
  refine
    { words := rfl, begun := fun _ => rfl, gathered := ⟨[character], rfl, fun _ _ => rfl⟩,
      weight := ?_, ordinary := fun _ _ => ⟨ordinary, start, rfl⟩ }
  have longer : (reading.extend [character]).gathered = reading.gathered ++ [character] := rfl
  have sameQuoting : (reading.extend [character]).quoting = reading.quoting := rfl
  rw [weight, weight, longer, sameQuoting, List.length_append, List.length_singleton]
  omega

theorem steps_of_unquoted (unquoted : reading.quoting = .unquoted)
    (stepped : reading.step character = .ok next) : Steps reading character next := by
  obtain ⟨words, word, _⟩ := reading
  cases unquoted
  cases does : role character with
  | blank =>
      simp only [step, does, Except.ok.injEq] at stepped
      subst stepped
      cases word with
      | none => exact .skips does rfl rfl rfl
      | some word => exact .completes word does rfl rfl rfl
  | operator => simp [step, does] at stepped
  | expansion => simp [step, does] at stepped
  | backslash | doubleQuote | singleQuote =>
      simp only [step, does, Except.ok.injEq] at stepped
      subst stepped
      refine .grows (grows_of_lost ?_ rfl ?_ ?_ ?_ ?_)
      · exact ne_separator_of_role (by simp [does]) (by simp [does])
      all_goals simp [gathered, extend, weight]
  | ordinary =>
      simp only [step, does] at stepped
      split at stepped
      · cases stepped
      split at stepped
      · cases stepped
      · next noComment noHome =>
          cases stepped
          refine .grows (grows_of_ordinary does ?_)
          intro none
          exact ⟨fun isHash => noComment ⟨none, isHash⟩,
            fun isTilde => noHome ⟨none, isTilde⟩⟩

/-- Inside quotes a character only changes the quoting, or is kept. -/
theorem grows_of_quoted (quoted : reading.quoting ≠ .unquoted)
    (stepped : reading.step character = .ok next) : Grows reading character next := by
  obtain ⟨words, word, quoting⟩ := reading
  cases quoting with
  | unquoted => exact absurd rfl quoted
  | backslash =>
      simp only [step] at stepped
      split at stepped
      · next isNewline =>
          cases stepped
          subst isNewline
          exact grows_of_requoted quoted (by decide) (by decide)
      · cases stepped
        exact grows_of_kept [] rfl quoted (by simp) (.inl rfl)
  | single =>
      simp only [step] at stepped
      split at stepped
      · next isQuote =>
          cases stepped
          subst isQuote
          exact grows_of_requoted quoted (by decide) (by decide)
      · cases stepped
        exact grows_of_kept [] rfl quoted (by simp) (.inl rfl)
  | double =>
      simp only [step] at stepped
      split at stepped
      · next isQuote =>
          cases stepped
          subst isQuote
          exact grows_of_requoted quoted (by decide) (by decide)
      split at stepped
      · next isBackslash =>
          cases stepped
          subst isBackslash
          exact grows_of_requoted quoted (by decide) (by decide)
      split at stepped
      · cases stepped
      · cases stepped
        exact grows_of_kept [] rfl quoted (by simp) (.inl rfl)
  | doubleBackslash =>
      simp only [step] at stepped
      split at stepped
      · next isNewline =>
          cases stepped
          subst isNewline
          exact grows_of_requoted quoted (by decide) (by decide)
      split at stepped
      · cases stepped
        exact grows_of_kept [] rfl quoted (by simp) (.inl rfl)
      · cases stepped
        exact grows_of_kept ['\\'] rfl quoted (by simp) (.inr ⟨rfl, rfl⟩)

theorem steps_of_step (stepped : reading.step character = .ok next) :
    Steps reading character next := by
  by_cases unquoted : reading.quoting = .unquoted
  · exact steps_of_unquoted unquoted stepped
  · exact .grows (grows_of_quoted unquoted stepped)

/-! ## What several characters do -/

theorem exists_of_run_cons {rest : List Char}
    (ran : reading.run (character :: rest) = .ok last) :
    ∃ next, Steps reading character next ∧ next.run rest = .ok last := by
  rw [run] at ran
  obtain ⟨next, stepped, remaining⟩ := exists_of_bind_eq_ok ran
  exact ⟨next, steps_of_step stepped, remaining⟩

theorem Steps.keeps_words (steps : Steps reading character next) :
    reading.words <+: next.words := by
  cases steps with
  | completes word _ _ _ next_eq =>
      rw [next_eq]
      exact List.prefix_append _ _
  | skips _ _ _ next_eq => exact next_eq ▸ List.prefix_rfl
  | grows grows => exact grows.words ▸ List.prefix_rfl

theorem run_keeps_words {characters : List Char}
    (ran : reading.run characters = .ok last) : reading.words <+: last.words := by
  induction characters generalizing reading with
  | nil => cases ran; exact List.prefix_rfl
  | cons character rest induction =>
      obtain ⟨next, steps, remaining⟩ := exists_of_run_cons ran
      exact steps.keeps_words.trans (induction remaining)

/-- A step that completes no word, on the way to a reading with no more words. -/
theorem exists_of_run_cons_within {rest : List Char}
    (ran : reading.run (character :: rest) = .ok last)
    (same : last.words = reading.words) :
    ∃ next, next.run rest = .ok last ∧ last.words = next.words ∧
      (role character = .blank ∧ reading.word = none ∧ next = reading ∨
        Grows reading character next) := by
  obtain ⟨next, steps, remaining⟩ := exists_of_run_cons ran
  refine ⟨next, remaining, ?_⟩
  cases steps with
  | completes word _ _ _ next_eq =>
      have more := (run_keeps_words remaining).length_le
      rw [same, next_eq, fresh, List.length_append, List.length_singleton] at more
      exact absurd more (Nat.not_succ_le_self _)
  | skips blank _ none next_eq => exact ⟨by rw [same, next_eq], .inl ⟨blank, none, next_eq⟩⟩
  | grows grows => exact ⟨by rw [same, grows.words], .inr grows⟩

theorem run_weight_le {characters : List Char}
    (ran : reading.run characters = .ok last) (same : last.words = reading.words) :
    last.weight ≤ reading.weight + characters.length := by
  induction characters generalizing reading with
  | nil => cases ran; exact Nat.le_refl _
  | cons character rest induction =>
      obtain ⟨next, remaining, sameNext, skipped | grows⟩ :=
        exists_of_run_cons_within ran same
      · have bound := induction remaining sameNext
        rw [skipped.2.2] at bound
        exact Nat.le_trans bound (Nat.add_le_add_left (Nat.le_succ _) _)
      · have bound := induction remaining sameNext
        have stepBound := grows.weight
        rw [List.length_cons]
        omega

/-- A separator that is not a blank between words. -/
def Follows (reading : Reading) (separator : Char) : Prop :=
  separator = '-' ∨ separator = ' ' ∧ reading.word.isSome

theorem Follows.mem_separators {separator : Char} (follows : reading.Follows separator) :
    separator ∈ separators := by
  rcases follows with rfl | ⟨rfl, _⟩ <;> decide

/-- Within a word no separator is lost. -/
theorem run_count {characters : List Char} {separator : Char}
    (follows : reading.Follows separator) (ran : reading.run characters = .ok last)
    (same : last.words = reading.words) :
    last.gathered.count separator =
      reading.gathered.count separator + characters.count separator := by
  induction characters generalizing reading with
  | nil => cases ran; rfl
  | cons character rest induction =>
      obtain ⟨next, remaining, sameNext, ⟨blank, none, next_eq⟩ | grows⟩ :=
        exists_of_run_cons_within ran same
      · subst next_eq
        have different : character ≠ separator := by
          rintro rfl
          rcases follows with rfl | ⟨_, begun⟩
          · exact absurd blank (by decide)
          · simp [none] at begun
        rw [induction follows remaining sameNext, List.count_cons_of_ne different]
      · have followsNext : next.Follows separator := by
          rcases follows with isDash | ⟨isSpace, begun⟩
          · exact .inl isDash
          · exact .inr ⟨isSpace, grows.begun begun⟩
        obtain ⟨added, gathered, counted⟩ := grows.gathered
        rw [induction followsNext remaining sameNext, gathered, List.count_append,
          counted separator follows.mem_separators, Nat.add_assoc, ← List.count_append,
          List.singleton_append]

theorem run_words_of_not_blank {characters : List Char}
    (notBlank : ∀ character ∈ characters, role character ≠ .blank)
    (ran : reading.run characters = .ok last) : last.words = reading.words := by
  induction characters generalizing reading with
  | nil => cases ran; rfl
  | cons character rest induction =>
      obtain ⟨first, others⟩ := List.forall_mem_cons.mp notBlank
      obtain ⟨next, steps, remaining⟩ := exists_of_run_cons ran
      rw [induction others remaining]
      cases steps with
      | completes _ blank _ _ _ => exact absurd blank first
      | skips blank _ _ _ => exact absurd blank first
      | grows grows => exact grows.words

/-- A word that is completed on the way is shorter than what was read for it,
since it was completed by a blank. -/
theorem run_completes {characters : List Char}
    (ran : reading.run characters = .ok last) (changed : last.words ≠ reading.words) :
    ∃ word more, last.words = reading.words ++ word :: more ∧
      word.length < reading.weight + characters.length := by
  induction characters generalizing reading with
  | nil =>
      cases ran
      exact absurd rfl changed
  | cons character rest induction =>
      obtain ⟨next, steps, remaining⟩ := exists_of_run_cons ran
      rw [List.length_cons]
      cases steps with
      | completes word _ unquoted begun next_eq =>
          obtain ⟨more, words⟩ := run_keeps_words remaining
          refine ⟨word, more, ?_, ?_⟩
          · rw [← words, next_eq, fresh, List.append_assoc, List.singleton_append]
          · rw [weight_of_unquoted unquoted, gathered, begun, Option.getD_some]
            omega
      | skips _ _ _ next_eq =>
          subst next_eq
          obtain ⟨word, more, words, shorter⟩ := induction remaining changed
          exact ⟨word, more, words, by omega⟩
      | grows grows =>
          rw [← grows.words] at changed
          obtain ⟨word, more, words, shorter⟩ := induction remaining changed
          have bound := grows.weight
          exact ⟨word, more, grows.words ▸ words, by omega⟩

/-! ## The words of a line -/

theorem exists_of_wordsOf_cons {rest : List Char} {result : List (List Char)}
    (success : reading.wordsOf (character :: rest) = .ok result) :
    ∃ next, Steps reading character next ∧ next.wordsOf rest = .ok result := by
  obtain ⟨last, ran, finished⟩ := exists_of_bind_eq_ok success
  obtain ⟨next, steps, remaining⟩ := exists_of_run_cons ran
  refine ⟨next, steps, ?_⟩
  rw [wordsOf, remaining]
  exact finished

theorem eq_of_finish {result : List (List Char)} (finished : reading.finish = .ok result) :
    reading.quoting = .unquoted ∧ result = reading.complete.words := by
  rw [finish] at finished
  split at finished
  · next unquoted =>
      cases finished
      exact ⟨unquoted, rfl⟩
  · cases finished

theorem complete_keeps_words (reading : Reading) :
    reading.words <+: reading.complete.words := by
  rw [complete]
  split
  · exact List.prefix_rfl
  · exact List.prefix_append _ _

theorem wordsOf_keeps_words {rest : List Char} {result : List (List Char)}
    (success : reading.wordsOf rest = .ok result) : reading.words <+: result := by
  obtain ⟨last, ran, finished⟩ := exists_of_bind_eq_ok success
  obtain ⟨_, rfl⟩ := eq_of_finish finished
  exact (run_keeps_words ran).trans last.complete_keeps_words

/-- A word that has begun is the beginning of the next word of the line. -/
theorem wordsOf_begun {rest word : List Char} {result : List (List Char)}
    (success : reading.wordsOf rest = .ok result) (begun : reading.word = some word) :
    ∃ whole more, result = reading.words ++ whole :: more ∧ word <+: whole := by
  induction rest generalizing reading word with
  | nil =>
      have finished : reading.finish = .ok result := success
      obtain ⟨_, rfl⟩ := eq_of_finish finished
      rw [complete_of_word begun]
      exact ⟨word, [], rfl, List.prefix_rfl⟩
  | cons character rest induction =>
      obtain ⟨next, steps, remaining⟩ := exists_of_wordsOf_cons success
      cases steps with
      | completes complete _ _ sameWord next_eq =>
          rw [begun, Option.some.injEq] at sameWord
          subst sameWord
          obtain ⟨more, words⟩ := wordsOf_keeps_words remaining
          refine ⟨word, more, ?_, List.prefix_rfl⟩
          rw [← words, next_eq, fresh, List.append_assoc, List.singleton_append]
      | skips _ _ none _ =>
          rw [none] at begun
          cases begun
      | grows grows =>
          obtain ⟨longer, begunNext⟩ :=
            Option.isSome_iff_exists.mp (grows.begun (by rw [begun]; rfl))
          obtain ⟨added, gathered, _⟩ := grows.gathered
          rw [Reading.gathered, Reading.gathered, begun, begunNext, Option.getD_some,
            Option.getD_some] at gathered
          obtain ⟨whole, more, result_eq, start⟩ := induction remaining begunNext
          rw [grows.words] at result_eq
          refine ⟨whole, more, result_eq, ?_⟩
          exact (gathered ▸ List.prefix_append word added).trans start

/-- A word of all characters that were read for it is not complete before they
have been read: the blank that completed it would be one of them. -/
theorem words_eq_of_wordsOf {text tail : List Char} {others : List (List Char)}
    (unquoted : reading.quoting = .unquoted) (ran : reading.run text = .ok next)
    (remaining : next.wordsOf tail =
      .ok (reading.words ++ (reading.gathered ++ text) :: others)) :
    next.words = reading.words := by
  by_contra changed
  obtain ⟨word, more, words, shorter⟩ := run_completes ran changed
  obtain ⟨rest, whole⟩ := wordsOf_keeps_words remaining
  rw [words, List.append_assoc, List.cons_append, List.append_cancel_left_eq,
    List.cons.injEq] at whole
  rw [whole.1, weight_of_unquoted unquoted, List.length_append] at shorter
  exact Nat.lt_irrefl _ shorter

/-- Such a word is complete at the next separator, which it would have gained
otherwise. -/
theorem words_ne_of_separator {text between rest : List Char} {separator : Char}
    {others : List (List Char)} (follows : reading.Follows separator)
    (ran : reading.run (text ++ between) = .ok last) (separates : separator ∈ between)
    (final : last.wordsOf rest =
      .ok (reading.words ++ (reading.gathered ++ text) :: others)) :
    last.words ≠ reading.words := by
  intro same
  have counted := run_count follows ran same
  rw [List.count_append] at counted
  have positive := List.count_pos_iff.mpr separates
  cases begun : last.word with
  | none =>
      rw [gathered, begun, Option.getD_none, List.count_nil] at counted
      omega
  | some word =>
      obtain ⟨whole, more, result, start⟩ := wordsOf_begun final begun
      rw [same, List.append_cancel_left_eq, List.cons.injEq] at result
      have atMost := start.sublist.count_le separator
      rw [gathered, begun, Option.getD_some] at counted
      rw [← result.1, List.count_append] at atMost
      omega

/-- Where a text is read as a whole word before a separator or the end of the
line, it is read as that word already before that. -/
theorem run_eq_of_wordsOf {text tail : List Char} {separator : Char}
    {others : List (List Char)} (unquoted : reading.quoting = .unquoted)
    (follows : reading.Follows separator)
    (ends : tail = [] ∨ ∃ between rest, tail = ' ' :: (between ++ rest) ∧
      separator ∈ ' ' :: between ∧ ∀ character ∈ between, role character ≠ .blank)
    (success : reading.wordsOf (text ++ tail) =
      .ok (reading.words ++ (reading.gathered ++ text) :: others)) :
    reading.run text =
      .ok ⟨reading.words, some (reading.gathered ++ text), .unquoted⟩ := by
  obtain ⟨reached, ran, remaining⟩ := exists_run_of_wordsOf success
  have same := words_eq_of_wordsOf unquoted ran remaining
  -- It is enough that a word has begun and ends here.
  have ended {word : List Char} {more : List (List Char)} (begun : reached.word = some word)
      (plain : reached.quoting = .unquoted)
      (words : reached.words ++ word :: more =
        reading.words ++ (reading.gathered ++ text) :: others) :
      reading.run text =
        .ok ⟨reading.words, some (reading.gathered ++ text), .unquoted⟩ := by
    rw [same, List.append_cancel_left_eq, List.cons.injEq] at words
    rw [ran, ← words.1, ← begun, ← plain, ← same]
  rcases ends with rfl | ⟨between, rest, rfl, separates, notBlank⟩
  · have finished : reached.finish = _ := remaining
    obtain ⟨plain, result⟩ := eq_of_finish finished
    cases begun : reached.word with
    | none =>
        rw [complete, begun, same] at result
        exact absurd (congrArg List.length result) (by simp)
    | some word =>
        rw [complete_of_word begun] at result
        exact ended begun plain result.symm
  · rw [← List.cons_append] at remaining
    obtain ⟨last, ranOn, final⟩ := exists_run_of_wordsOf remaining
    obtain ⟨others', words⟩ := wordsOf_keeps_words final
    have ranAll : reading.run (text ++ ' ' :: between) = .ok last := by
      rw [run_append, ran]
      exact ranOn
    have completed := words_ne_of_separator follows ranAll separates final
    -- Only the blank itself can have completed it.
    obtain ⟨next, steps, ranBetween⟩ := exists_of_run_cons ranOn
    have sameNext := run_words_of_not_blank notBlank ranBetween
    rw [sameNext, ← same] at completed
    cases steps with
    | completes word _ plain begun next_eq =>
        have whole : reached.words ++ word :: others' =
            reading.words ++ (reading.gathered ++ text) :: others := by
          rw [← words, sameNext, next_eq, fresh, List.append_assoc, List.singleton_append]
        exact ended begun plain whole
    | skips _ _ _ next_eq => exact absurd (by rw [next_eq]) completed
    | grows grows => exact absurd grows.words completed

/-! ## Bare words -/

theorem run_ordinary {characters word : List Char}
    (ordinary : ∀ character ∈ characters, role character = .ordinary)
    (unquoted : reading.quoting = .unquoted) (begun : reading.word = some word) :
    reading.run characters =
      .ok ⟨reading.words, some (word ++ characters), .unquoted⟩ := by
  induction characters generalizing reading word with
  | nil =>
      obtain ⟨words, _, _⟩ := reading
      cases begun
      cases unquoted
      rw [run, List.append_nil]
  | cons character rest induction =>
      obtain ⟨first, others⟩ := List.forall_mem_cons.mp ordinary
      have stepped : reading.step character = .ok (reading.extend [character]) := by
        simp [step, unquoted, first, begun]
      have extended : (reading.extend [character]).word = some (word ++ [character]) := by
        rw [extend, gathered, begun, Option.getD_some]
      have remaining : (reading.extend [character]).run rest = _ :=
        induction others unquoted extended
      rw [run_cons_of_step stepped, remaining, words_extend, List.append_assoc,
        List.singleton_append]

theorem run_bare {word : List Char} (bare : Bare word) (words : List (List Char)) :
    (fresh words).run word = .ok ⟨words, some word, .unquoted⟩ := by
  obtain ⟨notEmpty, ordinary, noComment, noHome⟩ := bare
  cases word with
  | nil => exact absurd rfl notEmpty
  | cons character rest =>
      obtain ⟨first, others⟩ := List.forall_mem_cons.mp ordinary
      have noHash : character ≠ '#' := by simpa using noComment
      have noTilde : character ≠ '~' := by simpa using noHome
      have stepped : (fresh words).step character = .ok ((fresh words).extend [character]) := by
        simp [step, fresh, first, noHash, noTilde]
      have remaining : ((fresh words).extend [character]).run rest = _ :=
        run_ordinary others rfl rfl
      rw [run_cons_of_step stepped, remaining]
      rfl

/-- What is read without losing any weight is ordinary. -/
theorem ordinary_of_run {characters : List Char} (unquoted : reading.quoting = .unquoted)
    (ran : reading.run characters = .ok last) (same : last.words = reading.words)
    (weight : last.weight = reading.weight + characters.length) :
    (∀ character ∈ characters, role character = .ordinary) ∧
      (reading.word = none →
        characters.head? ≠ some '#' ∧ characters.head? ≠ some '~') := by
  induction characters generalizing reading with
  | nil => simp
  | cons character rest induction =>
      obtain ⟨next, remaining, sameNext, skipped | grows⟩ :=
        exists_of_run_cons_within ran same
      · have bound := run_weight_le remaining sameNext
        rw [skipped.2.2] at bound
        rw [List.length_cons] at weight
        omega
      · have bound := run_weight_le remaining sameNext
        have stepBound := grows.weight
        rw [List.length_cons] at weight
        obtain ⟨first, start, next_eq⟩ := grows.ordinary unquoted (by omega)
        have unquotedNext : next.quoting = .unquoted := next_eq ▸ unquoted
        obtain ⟨others, _⟩ := induction unquotedNext remaining sameNext (by omega)
        refine ⟨List.forall_mem_cons.mpr ⟨first, others⟩, ?_⟩
        simpa using start

theorem run_eq_iff_bare (words : List (List Char)) (word : List Char) :
    (fresh words).run word = .ok ⟨words, some word, .unquoted⟩ ↔ Bare word := by
  constructor
  · intro ran
    have weight : (⟨words, some word, .unquoted⟩ : Reading).weight =
        (fresh words).weight + word.length := by
      simp [Reading.weight, gathered, fresh]
    obtain ⟨ordinary, start⟩ := ordinary_of_run rfl ran rfl weight
    refine ⟨?_, ordinary, start rfl⟩
    rintro rfl
    cases ran
  · intro bare
    exact run_bare bare words

end Reading

end Montage.Shell
