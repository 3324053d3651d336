import Montage.Proofs.Render.Plan

/-!
# Carrying out renders

A render that has been planned requests the directory of its output, and then,
if there is one, the program.  How the render ends is told by what becomes of
these requests.
-/

namespace Montage

/-! ## Running the program -/

namespace Ffmpeg

/-- The program can be started and exits with zero.  Exiting means coming to an
end by itself: a program that writes more than `largestOutput` bytes to a stream
is stopped, so it does not exit with zero whatever status it would have had. -/
def Succeeds (name : String) (arguments : List String) (world : World) : Prop :=
  ∃ location run, world.program name = .ok (location, run) ∧
    (run arguments).overflow? largestOutput = none ∧ (run arguments).status = 0

/-- Why a run of a program fails: it cannot be started, is stopped, or does not
exit with zero. -/
inductive Fails (name : String) (arguments : List String) (world : World) :
    Failure → Prop where
  | denied {fault : PathFault} : world.program name = .error fault →
      fault.deniesProgram = true → Fails name arguments world (.notStarted name fault)
  | noProgram {fault : PathFault} : world.program name = .error fault →
      fault.deniesProgram = false → Fails name arguments world (.notStartable fault)
  | overflowed {location : Location} {run : List String → Outcome} {stream : String} :
      world.program name = .ok (location, run) →
      (run arguments).overflow? largestOutput = some stream →
      Fails name arguments world (.overflowed stream)
  | exited {location : Location} {run : List String → Outcome} :
      world.program name = .ok (location, run) →
      (run arguments).overflow? largestOutput = none → (run arguments).status ≠ 0 →
      Fails name arguments world (.exited name arguments (run arguments).complaint)

theorem succeeds_or_fails (name : String) (arguments : List String) (world : World) :
    Succeeds name arguments world ∨ ∃ cause, Fails name arguments world cause := by
  cases found : world.program name with
  | error fault =>
      right
      cases denies : fault.deniesProgram with
      | true => exact ⟨_, .denied found denies⟩
      | false => exact ⟨_, .noProgram found denies⟩
  | ok program =>
      obtain ⟨location, run⟩ := program
      cases overflow : (run arguments).overflow? largestOutput with
      | some stream => exact .inr ⟨_, .overflowed found overflow⟩
      | none =>
          by_cases zero : (run arguments).status = 0
          · exact .inl ⟨location, run, found, overflow, zero⟩
          · exact .inr ⟨_, .exited found overflow zero⟩

theorem Fails.not_succeeds {name : String} {arguments : List String} {world : World}
    {cause : Failure} (fails : Fails name arguments world cause) :
    ¬ Succeeds name arguments world := by
  rintro ⟨location, run, found, fits, zero⟩
  cases fails with
  | denied missing _ =>
      rw [missing] at found
      cases found
  | noProgram missing _ =>
      rw [missing] at found
      cases found
  | overflowed started overflow =>
      rw [started] at found
      cases found
      rw [fits] at overflow
      cases overflow
  | exited started _ nonzero =>
      rw [started] at found
      cases found
      exact nonzero zero

instance (name : String) (arguments : List String) (world : World) :
    Decidable (Succeeds name arguments world) :=
  match found : world.program name with
  | .error fault => isFalse (by
      rintro ⟨location, run, program, _⟩
      rw [found] at program
      cases program)
  | .ok (location, run) =>
      if success : (run arguments).overflow? largestOutput = none ∧ (run arguments).status = 0
      then isTrue ⟨location, run, found, success⟩
      else isFalse (by
        rintro ⟨other, started, program, exited⟩
        rw [found] at program
        cases program
        exact success exited)

/-- The start of the program, if there is one. -/
def starts (name : String) (arguments : List String) (world : World) : List Event :=
  match world.program name with
  | .error _ => []
  | .ok (location, _) => [.started location arguments]

/-- A run of a program requests it once. -/
def requests (name : String) (arguments : List String) (world : World) : List Event :=
  .programRequested name arguments :: starts name arguments world

theorem programRequested_not_mem_starts (name other : String) (arguments given : List String)
    (world : World) : .programRequested other given ∉ starts name arguments world := by
  intro member
  rw [starts] at member
  split at member
  · cases member
  · cases List.mem_singleton.mp member

section

variable {name : String} {arguments : List String} {world other : World}
  (same : world.SameHost other)

include same

theorem Succeeds.sameHost (succeeds : Succeeds name arguments world) :
    Succeeds name arguments other := by
  rw [Succeeds, same.program_eq]
  exact succeeds

theorem Fails.sameHost {cause : Failure} (fails : Fails name arguments world cause) :
    Fails name arguments other cause := by
  have found := same.program_eq name
  cases fails with
  | denied program denies => exact .denied (found.trans program) denies
  | noProgram program permits => exact .noProgram (found.trans program) permits
  | overflowed program overflow => exact .overflowed (found.trans program) overflow
  | exited program fits nonzero => exact .exited (found.trans program) fits nonzero

theorem requests_eq (name : String) (arguments : List String) :
    requests name arguments other = requests name arguments world := by
  rw [requests, requests, starts, starts, same.program_eq]

end

/-- The world in which the program is requested. -/
def requesting (arguments : List String) (world : World) : World :=
  (announced world).logged .debug
    ("[FFmpeg] " ++ world.currentSettings.programName ++ " " ++ String.intercalate " " arguments)

theorem leads_requesting (arguments : List String) (world : World) :
    world.Leads [] (requesting arguments world) :=
  (leads_announced world).logged _ _

/-- What is left to do once the program has been requested. -/
def conclude (name : String) (arguments : List String) : Except PathFault Outcome → Job Unit
  | .error fault =>
      if fault.deniesProgram then do
        Job.log .error "[FFmpeg] failed: "
        Job.fail (.notStarted name fault)
      else Job.fail (.notStartable fault)
  | .ok outcome =>
      match outcome.overflow? largestOutput with
      | some stream => do
          Job.log .error ("[FFmpeg] failed: " ++ keptComplaint outcome)
          Job.fail (.overflowed stream)
      | none =>
          if outcome.status ≠ 0 then do
            Job.log .error ("[FFmpeg] failed: " ++ outcome.complaint)
            Job.fail (.exited name arguments outcome.complaint)
          else pure ()

theorem Succeeds.conclude_eq {name : String} {arguments : List String} {world : World}
    (succeeds : Succeeds name arguments world) (requested : World) :
    conclude name arguments ((world.program name).map fun found => found.2 arguments) requested =
      .ok () requested := by
  obtain ⟨location, run, found, fits, zero⟩ := succeeds
  simp only [found, Except.map, conclude, fits, zero, ne_eq, not_true_eq_false, if_false]
  rfl

theorem Fails.exists_conclude_eq {name : String} {arguments : List String} {world : World}
    {cause : Failure} (fails : Fails name arguments world cause) (requested : World) :
    ∃ after,
      conclude name arguments ((world.program name).map fun found => found.2 arguments)
          requested = .error cause after ∧
        requested.Leads [] after := by
  cases fails with
  | denied found denies =>
      simp only [found, Except.map, conclude, denies, if_true]
      exact ⟨_, Job.run_log_fail _ _ _ requested, requested.leads_logged _ _⟩
  | noProgram found permits =>
      simp only [found, Except.map, conclude, permits, Bool.false_eq_true, if_false]
      exact ⟨requested, rfl, .refl requested⟩
  | overflowed found overflow =>
      simp only [found, Except.map, conclude, overflow]
      exact ⟨_, Job.run_log_fail _ _ _ requested, requested.leads_logged _ _⟩
  | exited found fits nonzero =>
      simp only [found, Except.map, conclude, fits, ne_eq, nonzero, not_false_eq_true, if_true]
      exact ⟨_, Job.run_log_fail _ _ _ requested, requested.leads_logged _ _⟩

theorem run_eq {name : String} {world : World}
    (named : world.currentSettings.programName = name) (arguments : List String) :
    run arguments world =
      (Job.start name arguments >>= conclude name arguments) (requesting arguments world) := by
  subst named
  rw [run, Job.run_bind_of_ok (run_program world),
    Job.run_bind_of_ok (Job.run_log_eq_logged _ _ _)]
  rfl

section

variable {name : String} {arguments : List String} {world : World}
  (named : world.currentSettings.programName = name)

include named

/-- The program is requested in a world that is still as it was, so it is found
or not found there as before. -/
theorem run_of_accepts (accepts : Job.Accepts name arguments) :
    ∃ requested, world.Leads (requests name arguments world) requested ∧
      run arguments world =
        conclude name arguments ((world.program name).map fun found => found.2 arguments)
          requested := by
  have ready := leads_requesting arguments world
  have asked := ready.noted (.programRequested name arguments) rfl
  have start := Job.run_start accepts (requesting arguments world)
  rw [ready.program_eq] at start
  rw [run_eq named]
  cases found : world.program name with
  | error fault =>
      rw [found] at start
      refine ⟨_, ?_, Job.run_bind_of_ok start⟩
      rw [requests, starts, found]
      exact asked
  | ok program =>
      obtain ⟨location, run⟩ := program
      rw [found] at start
      refine ⟨_, ?_, Job.run_bind_of_ok start⟩
      rw [requests, starts, found]
      exact asked.noted (.started location arguments) rfl

theorem run_of_succeeds (accepts : Job.Accepts name arguments)
    (succeeds : Succeeds name arguments world) :
    ∃ after, run arguments world = .ok () after ∧
      world.Leads (requests name arguments world) after := by
  obtain ⟨requested, leads, concludes⟩ := run_of_accepts named accepts
  exact ⟨requested, concludes.trans (succeeds.conclude_eq requested), leads⟩

theorem run_of_fails (accepts : Job.Accepts name arguments) {cause : Failure}
    (fails : Fails name arguments world cause) :
    ∃ after, run arguments world = .error cause after ∧
      world.Leads (requests name arguments world) after := by
  obtain ⟨requested, leads, concludes⟩ := run_of_accepts named accepts
  obtain ⟨after, fails, logs⟩ := fails.exists_conclude_eq requested
  have both := leads.trans logs
  rw [List.append_nil] at both
  exact ⟨after, concludes.trans fails, both⟩

theorem run_of_not_accepts (unaccepted : ¬ Job.Accepts name arguments) :
    ∃ failure after, run arguments world = .error failure after ∧
      world.Leads [.programRequested name arguments] after := by
  have ready := leads_requesting arguments world
  obtain ⟨_, _, _, refusal⟩ := Job.exists_start_refusal unaccepted (requesting arguments world)
  rw [run_eq named]
  exact ⟨_, _, Job.run_bind_of_error refusal,
    ready.noted (.programRequested name arguments) rfl⟩

end

/-- Whatever becomes of it, a run of the program requests it, and nothing
else. -/
theorem exists_effects_run (arguments : List String) (world : World) :
    ∃ started,
      (Job.leaves (run arguments) world).effects =
        world.effects ++
          .programRequested world.currentSettings.programName arguments :: started ∧
      ∀ name given, .programRequested name given ∉ started := by
  by_cases accepts : Job.Accepts world.currentSettings.programName arguments
  · rcases succeeds_or_fails world.currentSettings.programName arguments world with
      succeeds | ⟨cause, fails⟩
    · obtain ⟨after, ran, leads⟩ := run_of_succeeds rfl accepts succeeds
      rw [Job.leaves_of_ok ran]
      exact ⟨_, leads.effects, fun _ _ => programRequested_not_mem_starts _ _ _ _ _⟩
    · obtain ⟨after, ran, leads⟩ := run_of_fails rfl accepts fails
      rw [Job.leaves_of_error ran]
      exact ⟨_, leads.effects, fun _ _ => programRequested_not_mem_starts _ _ _ _ _⟩
  · obtain ⟨failure, after, ran, leads⟩ := run_of_not_accepts rfl accepts
    rw [Job.leaves_of_error ran]
    exact ⟨[], leads.effects, fun _ _ => List.not_mem_nil⟩

end Ffmpeg

/-! ## Carrying out a plan -/

namespace Render

/-- The path of the file that a plan writes, for a render in a directory. -/
def outputIn (directory : Location) (planned : RenderPlan) : String :=
  Path.ofLocation (Path.resolve directory planned.outputPath)

/-- The path of the directory in which that file stands. -/
def parentIn (directory : Location) (planned : RenderPlan) : String :=
  Path.ofLocation (Path.resolve directory planned.outputPath).dropLast

/-- Everything that a render requests if its directory can be made. -/
def requests (name : String) (planned : RenderPlan) (world : World) : List Event :=
  .directoryRequested (parentIn world.directory planned) ::
    .directoryMade (parentIn world.directory planned) ::
      Ffmpeg.requests name planned.arguments world

/-- What is left to do once the directory has been made. -/
def produce (path : String) (arguments : List String) : Job String := do
  Job.log .info ("[Composition] Rendering → " ++ Text.oneLine path)
  try Ffmpeg.run arguments
  catch cause => Job.fail (.render cause)
  Job.log .info ("[Composition] Complete: " ++ Text.oneLine path)
  return path

/-- What is left to do once a render has been planned. -/
def carryOut (planned : RenderPlan) : Job String := do
  let target ← Job.resolve planned.outputPath
  Job.makeDirectories (Path.ofLocation target.dropLast)
  produce (Path.ofLocation target) planned.arguments

theorem run_eq (root : Node) (options : RenderOptions) :
    run root options = plan root options >>= carryOut := rfl

/-- The world in which the program is run. -/
def announced (path : String) (world : World) : World :=
  world.logged .info ("[Composition] Rendering → " ++ Text.oneLine path)

section

variable {path : String} {arguments : List String} {world done : World}

theorem run_produce_of_ok (ran : Ffmpeg.run arguments (announced path world) = .ok () done) :
    produce path arguments world =
      .ok path (done.logged .info ("[Composition] Complete: " ++ Text.oneLine path)) := by
  rw [produce, Job.run_bind_of_ok (Job.run_log_eq_logged _ _ world)]
  change (tryCatch (Ffmpeg.run arguments) _ >>= _) (announced path world) = _
  rw [Job.run_bind_of_ok (Job.run_tryCatch_of_ok ran),
    Job.run_bind_of_ok (Job.run_log_eq_logged _ _ done)]
  rfl

theorem run_produce_of_error {cause : Failure}
    (failed : Ffmpeg.run arguments (announced path world) = .error cause done) :
    produce path arguments world = .error (.render cause) done := by
  rw [produce, Job.run_bind_of_ok (Job.run_log_eq_logged _ _ world)]
  exact Job.run_bind_of_error (Job.run_tryCatch_of_error failed)

theorem effects_produce (path : String) (arguments : List String) (world : World) :
    (Job.leaves (produce path arguments) world).effects =
      (Job.leaves (Ffmpeg.run arguments) (announced path world)).effects := by
  cases ran : Ffmpeg.run arguments (announced path world) with
  | ok nothing done =>
      rw [Job.leaves_of_ok (run_produce_of_ok ran), Job.leaves_of_ok ran, World.effects_logged]
  | error cause done =>
      rw [Job.leaves_of_error (run_produce_of_error ran), Job.leaves_of_error ran]

end

section

variable {planned : RenderPlan} {before world : World} {files : FileSystem}
  (leads : before.Leads [] world)

include leads

theorem run_carryOut_of_refused (holds : ¬ NullFree (parentIn before.directory planned)) :
    ∃ failure after, carryOut planned world = .error failure after ∧
      before.Leads [.directoryRequested (parentIn before.directory planned)] after := by
  obtain ⟨failure, refused⟩ := Job.exists_makeDirectories_refusal holds world
  rw [carryOut, Job.run_bind_of_ok (Job.run_resolve planned.outputPath world), leads.directory]
  exact ⟨failure, _, Job.run_bind_of_error refused, leads.noted _ rfl⟩

variable (nullFree : NullFree (parentIn before.directory planned))

include nullFree

theorem run_carryOut_of_obstacle {obstacle : Obstacle}
    (blocked : before.files.makeDirectories before.directory
      (parentIn before.directory planned) = (files, some obstacle)) :
    ∃ after, carryOut planned world = .error (.noDirectory obstacle) after ∧
      (before.withFiles files).Leads
        [.directoryRequested (parentIn before.directory planned)] after := by
  have making := Job.run_makeDirectories nullFree world
  rw [leads.files, leads.directory, blocked] at making
  rw [carryOut, Job.run_bind_of_ok (Job.run_resolve planned.outputPath world), leads.directory]
  exact ⟨_, Job.run_bind_of_error making, (leads.withFiles files).noted _ rfl⟩

variable
  (made : before.files.makeDirectories before.directory (parentIn before.directory planned) =
    (files, none))

include made

/-- Once the directory has been made, only the program can still fail. -/
theorem run_carryOut_of_made :
    ∃ ready,
      carryOut planned world =
        produce (outputIn before.directory planned) planned.arguments ready ∧
      (before.withFiles files).Leads
        [.directoryRequested (parentIn before.directory planned),
          .directoryMade (parentIn before.directory planned)]
        (announced (outputIn before.directory planned) ready) := by
  have making := Job.run_makeDirectories nullFree world
  rw [leads.files, leads.directory, made] at making
  rw [carryOut, Job.run_bind_of_ok (Job.run_resolve planned.outputPath world), leads.directory]
  refine ⟨_, Job.run_bind_of_ok making, World.Leads.logged ?_ _ _⟩
  exact ((leads.withFiles files).noted _ rfl).noted _ rfl

variable {name : String} (named : before.currentSettings.programName = name)
  (accepts : Job.Accepts name planned.arguments)

include named accepts

theorem run_carryOut_of_succeeds
    (succeeds : Ffmpeg.Succeeds name planned.arguments (before.withFiles files)) :
    ∃ after, carryOut planned world = .ok (outputIn before.directory planned) after ∧
      (before.withFiles files).Leads (requests name planned (before.withFiles files)) after := by
  obtain ⟨ready, carries, first⟩ := run_carryOut_of_made leads nullFree made
  have named := (congrArg Settings.programName first.settings).trans named
  obtain ⟨done, ran, second⟩ :=
    Ffmpeg.run_of_succeeds named accepts (succeeds.sameHost first.toSameHost)
  rw [Ffmpeg.requests_eq first.toSameHost] at second
  exact ⟨_, carries.trans (run_produce_of_ok ran), (first.trans second).logged _ _⟩

theorem run_carryOut_of_fails {cause : Failure}
    (fails : Ffmpeg.Fails name planned.arguments (before.withFiles files) cause) :
    ∃ after, carryOut planned world = .error (.render cause) after ∧
      (before.withFiles files).Leads (requests name planned (before.withFiles files)) after := by
  obtain ⟨ready, carries, first⟩ := run_carryOut_of_made leads nullFree made
  have named := (congrArg Settings.programName first.settings).trans named
  obtain ⟨done, ran, second⟩ :=
    Ffmpeg.run_of_fails named accepts (fails.sameHost first.toSameHost)
  rw [Ffmpeg.requests_eq first.toSameHost] at second
  exact ⟨_, carries.trans (run_produce_of_error ran), first.trans second⟩

end

/-- Whatever becomes of it, a render requests its directory before anything
else, and no program but the one that the settings name. -/
theorem exists_effects_carryOut (planned : RenderPlan) (world : World) :
    ∃ more,
      (Job.leaves (carryOut planned) world).effects =
        world.effects ++ .directoryRequested (parentIn world.directory planned) :: more ∧
      ∀ name arguments, .programRequested name arguments ∈ more →
        name = world.currentSettings.programName ∧ arguments = planned.arguments := by
  by_cases nullFree : NullFree (parentIn world.directory planned)
  · rcases making : world.files.makeDirectories world.directory
        (parentIn world.directory planned) with ⟨files, _ | obstacle⟩
    · obtain ⟨ready, carries, leads⟩ := run_carryOut_of_made (.refl world) nullFree making
      obtain ⟨started, runs, others⟩ := Ffmpeg.exists_effects_run planned.arguments
        (announced (outputIn world.directory planned) ready)
      have carried : (Job.leaves (carryOut planned) world).effects = _ :=
        (congrArg World.effects (Job.leaves_eq carries)).trans (effects_produce _ _ ready)
      rw [runs, leads.effects, leads.settings, List.append_assoc] at carried
      refine ⟨_, carried, ?_⟩
      intro name arguments member
      rcases List.mem_cons.mp member with impossible | member
      · cases impossible
      · rcases List.mem_cons.mp member with same | member
        · cases same
          exact ⟨rfl, rfl⟩
        · exact absurd member (others name arguments)
    · obtain ⟨after, carries, leads⟩ := run_carryOut_of_obstacle (.refl world) nullFree making
      rw [Job.leaves_of_error carries]
      exact ⟨[], leads.effects, fun _ _ member => by cases member⟩
  · obtain ⟨failure, after, carries, leads⟩ := run_carryOut_of_refused (.refl world) nullFree
    rw [Job.leaves_of_error carries]
    exact ⟨[], leads.effects, fun _ _ member => by cases member⟩

end Render

end Montage
