import Montage.Proofs.Program.History

/-!
# How much a command logs

A command sets how much is logged before its work, and the work keeps to it: what it
tells is the same at every level, and the log keeps of it what the level shows.
Commands that nothing asks to be verbose log warnings only if their product is what
they print; the others leave the level as they have found it.
-/

namespace Montage.Program

open CommandLine (Choices Invocation)
open Job (leaves leaves_eq)

theorem verbose_settingsOf {choices : Choices} (asked : choices.verbose = true) (world : World) :
    (settingsOf choices world).verbose = true := by
  simp [settingsOf, Settings.make, Choices.given, asked]

theorem levelOf_of_verbose {choices : Choices} (asked : choices.verbose = true) (quiet : Bool)
    (before : Level) : levelOf choices quiet before = .debug :=
  if_pos asked

theorem levelOf_of_not_verbose {choices : Choices} {world : World}
    (unasked : (settingsOf choices world).verbose = false) (quiet : Bool) (before : Level) :
    levelOf choices quiet before = if quiet then .warn else before := by
  refine if_neg fun asked => ?_
  rw [verbose_settingsOf asked world] at unasked
  cases unasked

/-- A command works at the level that it has found once it has begun. -/
theorem threshold_perform (invocation : Invocation) (world : World) :
    (leaves (perform invocation) world).threshold =
      levelOf invocation.choices (isQuiet invocation.command) world.threshold := by
  rw [leaves_eq (run_perform invocation world)]
  let begun := ready invocation.choices (isQuiet invocation.command) world
  obtain ⟨_, _, tells⟩ := (conducted_work invocation).exists_told begun
  exact (tells begun.threshold).1

/-- After any history a command settles its settings and works at a level of its own.
Its switch makes it log everything.  Where its settings ask for no such thing, a command
whose product is what it prints logs warnings and errors only, and another one
keeps to the level of the history.  The level stays to the end, and what is told of
the work is the same at every level, which only decides what is kept of it. -/
theorem command_logs_at_level (start : World) (history : List Step) (invocation : Invocation) :
    ∃ (ready : World) (told : List Record),
      configure invocation.choices (isQuiet invocation.command) (after history start) =
        .ok () ready ∧
      perform invocation (after history start) = work invocation ready ∧
      ready.settings = some (settingsOf invocation.choices (after history start)) ∧
      ready.records = (after history start).records ∧
      (invocation.choices.verbose = true →
        (settingsOf invocation.choices (after history start)).verbose = true ∧
        ready.threshold = .debug) ∧
      ((settingsOf invocation.choices (after history start)).verbose = false →
        ready.threshold =
          if isQuiet invocation.command then .warn else (after history start).threshold) ∧
      ∀ level,
        (leaves (work invocation) (ready.atLevel level)).threshold = level ∧
        (leaves (work invocation) (ready.atLevel level)).records =
          ready.records ++ level.kept told := by
  have begins := run_configure_eq_ready invocation.choices (isQuiet invocation.command)
    (after history start)
  obtain ⟨told, _, tells⟩ := (conducted_work invocation).exists_told
    (ready invocation.choices (isQuiet invocation.command) (after history start))
  refine ⟨_, told, begins, run_perform invocation _, rfl, rfl, fun asked => ?_, fun unasked => ?_,
    tells⟩
  · exact ⟨verbose_settingsOf asked _, levelOf_of_verbose asked _ _⟩
  · exact levelOf_of_not_verbose unasked _ _

/-- Once a demonstration has been shown, a render that is not asked to be verbose logs
warnings only, and so does not log at the level of a fresh start. -/
theorem render_level_depends_on_history :
    ¬ ∀ (history : List Step) (invocation : Invocation) (ready : World),
      configure invocation.choices (isQuiet invocation.command) (after history World.empty) =
        .ok () ready →
      ready.threshold =
        if (settingsOf invocation.choices (after history World.empty)).verbose then .debug
        else if isQuiet invocation.command then .warn
        else .info := by
  intro independent
  let demonstration : List Step := [⟨_, .command ["demo", "--json"]⟩]
  let render : Invocation := ⟨.render, "clip.json", Choices.none⟩
  have found : (after demonstration World.empty).threshold = .warn := by
    change (leaves (run ["demo", "--json"]) World.empty).threshold = .warn
    have understood : CommandLine.understand ["demo", "--json"] =
        .ok ⟨.demo, "", { Choices.none with json := true }⟩ := by decide
    rw [run_of_understood understood, threshold_perform]
    rfl
  have level := independent demonstration render _ (run_configure_eq_ready _ _ _)
  have kept : (ready render.choices (isQuiet render.command)
      (after demonstration World.empty)).threshold = .warn := found
  rw [kept] at level
  split at level
  · cases level
  · cases level

end Montage.Program
