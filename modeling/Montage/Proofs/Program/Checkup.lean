import Montage.Proofs.Program.Output
import Montage.Proofs.Version

/-!
# What a checkup finds

On a recent platform all is well exactly if FFmpeg can be started, exits with zero and
shows a version number.  If it can be asked at all and all is not well, the report says
that FFmpeg has not been found.  The exit status tells the same.
-/

namespace Montage

open Job (Accepts leaves leaves_of_ok leaves_of_error run_bind_of_ok run_bind_of_error)
open Program (status_logged)

/-! ## The platform -/

namespace Doctor

open Value.Reader (Digits Undigited takeWhile_digits)

theorem foldl_digits {digits : List Char} (areDigits : Digits digits) (start : Nat) :
    digits.foldl (fun (total : Int) digit => total * 10 + (digit.toNat - 48)) start =
      (Nat.ofDigitChars 10 digits start : Int) := by
  induction digits generalizing start with
  | nil => rfl
  | cons digit rest induction =>
      obtain ⟨isDigit, others⟩ := List.forall_mem_cons.mp areDigits
      have least : 48 ≤ digit.toNat := (Char.isDigit_iff_toNat.mp isDigit).1
      have step : (start : Int) * 10 + (digit.toNat - 48) =
          (10 * start + (digit.toNat - 48) : Nat) := by
        omega
      rw [List.foldl_cons, step, induction others, Nat.ofDigitChars_cons]
      rfl

theorem isBlank_of_isDigit {character : Char} (isDigit : character.isDigit = true) :
    Text.isBlank character = false := by
  obtain ⟨low, high⟩ := Char.isDigit_iff_toNat.mp isDigit
  have low : 48 ≤ character.toNat := low
  have high : character.toNat ≤ 57 := high
  simp [Text.isBlank]
  omega

/-- A digit is neither a blank nor a sign. -/
theorem leadingInteger?_of_isDigit {first : Char} (isDigit : first.isDigit = true)
    (rest : List Char) :
    leadingInteger? (first :: rest) =
      some (((first :: rest).takeWhile Char.isDigit).foldl
        (fun (total : Int) digit => total * 10 + (digit.toNat - 48)) 0) := by
  have kept : (first :: rest).dropWhile Text.isBlank = first :: rest := by
    rw [List.dropWhile_cons, isBlank_of_isDigit isDigit]
    rfl
  have taken : (first :: rest).takeWhile Char.isDigit = first :: rest.takeWhile Char.isDigit := by
    rw [List.takeWhile_cons, isDigit]
    rfl
  have unsigned (sign : Char) (other : sign.isDigit = false) : first ≠ sign := by
    rintro rfl
    rw [isDigit] at other
    cases other
  rw [taken]
  simp [leadingInteger?, kept, unsigned '-' rfl, unsigned '+' rfl, taken]

theorem leadingInteger?_toDigits (natural : Nat) {rest : List Char} (ends : Undigited rest) :
    leadingInteger? (Nat.toDigits 10 natural ++ rest) = some (natural : Int) := by
  have areDigits := Digits.toDigits natural
  have taken := takeWhile_digits areDigits ends
  have value := foldl_digits areDigits 0
  rw [Nat.ofDigitChars_ten_toDigits] at value
  cases digits : Nat.toDigits 10 natural with
  | nil => exact absurd digits Nat.toDigits_ne_nil
  | cons first others =>
      rw [digits] at taken value areDigits
      rw [List.cons_append, leadingInteger?_of_isDigit (areDigits first List.mem_cons_self),
        ← List.cons_append, taken]
      exact congrArg some value

theorem passed_checkPlatform (major : Nat) (rest : String) :
    (checkPlatform ("v" ++ toString major ++ "." ++ rest)).passed =
      decide (leastMajor ≤ major) := by
  have characters : ("v" ++ toString major ++ "." ++ rest).toList =
      'v' :: (Nat.toDigits 10 major ++ '.' :: rest.toList) := by
    simp
  have found : major? ("v" ++ toString major ++ "." ++ rest) = some (major : Int) := by
    rw [major?, characters]
    exact leadingInteger?_toDigits major (by rintro _ ⟨⟩; rfl)
  rw [checkPlatform, found]
  simp

end Doctor

/-! ## The version of FFmpeg -/

namespace Ffmpeg

/-- A program can be asked for its version: the host takes its name, it can be started, is
not stopped for writing too much, exits with zero, and has then written a text. -/
def Answers (name : String) (world : World) (text : String) : Prop :=
  Accepts name ["-version"] ∧ ∃ location run, world.program name = .ok (location, run) ∧
    (run ["-version"]).overflow? largestReport = none ∧ (run ["-version"]).status = 0 ∧
    (run ["-version"]).output = text

/-- A program answers with a text that a version number stands in. -/
def ShowsVersion (name : String) (world : World) : Prop :=
  ∃ text, Answers name world text ∧ Version.ShownIn text.toList

theorem ShowsVersion.accepts {name : String} {world : World} (shows : ShowsVersion name world) :
    Accepts name ["-version"] := by
  obtain ⟨text, ⟨accepts, _⟩, _⟩ := shows
  exact accepts

theorem showsVersion_iff_of_sameHost {world other : World} (same : world.SameHost other)
    (name : String) : ShowsVersion name other ↔ ShowsVersion name world := by
  rw [ShowsVersion, ShowsVersion]
  simp only [Answers, same.program_eq]

section

variable {name : String} {world : World}

theorem not_showsVersion_of_error {fault : PathFault} (found : world.program name = .error fault) :
    ¬ ShowsVersion name world := by
  rintro ⟨text, ⟨_, location, run, started, _⟩, _⟩
  rw [found] at started
  cases started

theorem showsVersion_iff {location : Location} {run : List String → Outcome}
    (accepts : Accepts name ["-version"]) (found : world.program name = .ok (location, run)) :
    ShowsVersion name world ↔
      (run ["-version"]).overflow? largestReport = none ∧ (run ["-version"]).status = 0 ∧
        Version.ShownIn (run ["-version"]).output.toList := by
  constructor
  · rintro ⟨text, ⟨_, other, started, same, fits, zero, rfl⟩, shown⟩
    rw [found] at same
    cases same
    exact ⟨fits, zero, shown⟩
  · rintro ⟨fits, zero, shown⟩
    exact ⟨_, ⟨accepts, location, run, found, fits, zero, rfl⟩, shown⟩

/-- The rest of a job yields a version exactly if a program shows one, and then the job has had
these effects in all. -/
def FindsVersion (name : String) (events : List Event) (world : World) (rest : Job (Option String))
    (between : World) : Prop :=
  ∃ found after, rest between = .ok found after ∧ world.Leads events after ∧
    after.status = world.status ∧ (found.isSome ↔ ShowsVersion name world)

/-- A program that shows no version is reported to the log. -/
theorem findsVersion_unshown {between : World} {events : List Event}
    (unshown : ¬ ShowsVersion name world) (leads : world.Leads events between)
    (status : between.status = world.status) (message : String) :
    FindsVersion name events world (Job.log .debug message >>= fun _ => pure none) between :=
  ⟨none, _, run_bind_of_ok (Job.run_log_eq_logged _ _ _), leads.logged _ _,
    (status_logged _ _ _).trans status, iff_of_false (by rintro ⟨⟩) unshown⟩

/-- A program that can be asked is asked once. -/
theorem run_version? (accepts : Accepts name ["-version"]) (world : World) :
    FindsVersion name (requests name ["-version"] world) world (version? name) world := by
  have start := Job.run_start accepts world
  have asked := world.leads_noted (.programRequested name ["-version"]) rfl
  rw [FindsVersion, requests, starts]
  cases found : world.program name with
  | error fault =>
      rw [found] at start
      rw [version?, run_bind_of_ok start]
      exact findsVersion_unshown (not_showsVersion_of_error found) asked rfl _
  | ok program =>
      obtain ⟨location, run⟩ := program
      rw [found] at start
      have started := asked.noted (.started location ["-version"]) rfl
      have shows_iff := showsVersion_iff accepts found
      rw [version?, run_bind_of_ok start]
      dsimp only
      split
      · next overflow =>
          refine findsVersion_unshown ?_ started rfl _
          rw [shows_iff]
          rintro ⟨fits, _⟩
          rw [fits] at overflow
          cases overflow
      · next fits =>
          split
          · next fails =>
              refine findsVersion_unshown ?_ started rfl _
              rw [shows_iff]
              rintro ⟨_, zero, shown⟩
              rcases fails with nonzero | empty
              · exact nonzero zero
              · rw [empty] at shown
                exact Version.not_shownIn_nil shown
          · next succeeds =>
              have fits := Option.not_isSome_iff_eq_none.mp fits
              have zero := not_not.mp (not_or.mp succeeds).1
              refine ⟨_, _, rfl, started, rfl, Version.find?_isSome_iff.trans ?_⟩
              rw [shows_iff, and_iff_right fits, and_iff_right zero]

end

end Ffmpeg

/-! ## The report -/

namespace Doctor

/-- What a check of FFmpeg tells about it. -/
structure Finds (world : World) (check : Check) : Prop where
  required : check.required = true
  passed_iff : check.passed = true ↔ Ffmpeg.ShowsVersion world.currentSettings.programName world
  eq_notFound : check.passed = false → check = notFound world.system

theorem run_checkFfmpeg (world : World)
    (accepts : Accepts world.currentSettings.programName ["-version"]) :
    ∃ check after, checkFfmpeg world = .ok check after ∧
      world.Leads (Ffmpeg.requests world.currentSettings.programName ["-version"] world) after ∧
      after.status = world.status ∧ Finds world check := by
  let asking := (Ffmpeg.announced world).settled
  have ready : world.Leads [] asking :=
    (Ffmpeg.leads_announced world).trans (World.leads_settled _)
  have unchanged : asking.status = world.status := status_logged world.settled _ _
  obtain ⟨found, after, asks, leads, status, found_iff⟩ := Ffmpeg.run_version? accepts asking
  rw [Ffmpeg.requests_eq ready.toSameHost] at leads
  have shows_iff := found_iff.trans (Ffmpeg.showsVersion_iff_of_sameHost ready.toSameHost _)
  rw [checkFfmpeg, run_bind_of_ok (Ffmpeg.run_program world),
    run_bind_of_ok (Job.run_settings _), run_bind_of_ok asks]
  cases found with
  | some version =>
      exact ⟨_, after, rfl, ready.trans leads, status.trans unchanged, rfl,
        shows_iff, by rintro ⟨⟩⟩
  | none =>
      have checked := ready.trans leads
      have sameSystem : after.system = world.system := congrArg Host.system checked.host
      exact ⟨_, after, rfl, checked, status.trans unchanged, rfl,
        shows_iff, fun _ => congrArg notFound sameSystem⟩

/-- The world once lines have been printed. -/
def printed (lines : List String) (world : World) : World :=
  { world with journal := world.journal ++ lines.map fun line => .printed (line ++ "\n") }

theorem run_printLines (lines : List String) (world : World) :
    printLines lines world = .ok () (printed lines world) := by
  induction lines generalizing world with
  | nil =>
      rw [printed, List.map_nil, List.append_nil]
      rfl
  | cons line rest induction =>
      rw [printLines, run_bind_of_ok (Job.run_print line world), induction, printed, printed,
        List.map_cons, List.append_assoc]
      rfl

theorem effects_printed (lines : List String) (world : World) :
    (printed lines world).effects =
      world.effects ++ lines.map fun line => .printed (line ++ "\n") := by
  have kept (event : Event) (listed : event ∈ lines.map fun line => .printed (line ++ "\n")) :
      (!event.isRecord) = true := by
    obtain ⟨line, _, rfl⟩ := List.mem_map.mp listed
    rfl
  rw [World.effects, World.effects, printed, List.filter_append, List.filter_eq_self.mpr kept]

/-- The lines of a report. -/
def lines (platform ffmpeg : Check) : List String :=
  [platform.line, ffmpeg.line, "",
    verdict ([platform, ffmpeg].filter fun check => check.required && !check.passed).length]

theorem run_report {platform ffmpeg : Check} (platformRequired : platform.required = true)
    (ffmpegRequired : ffmpeg.required = true) (world : World) :
    report platform ffmpeg world =
      .ok (platform.passed && ffmpeg.passed) (printed (lines platform ffmpeg) world) := by
  have healthy : decide (([platform, ffmpeg].filter fun check =>
      check.required && !check.passed).length = 0) = (platform.passed && ffmpeg.passed) := by
    rw [List.filter_cons, List.filter_cons, platformRequired, ffmpegRequired]
    cases platform.passed <;> cases ffmpeg.passed <;> rfl
  have prints : report platform ffmpeg world =
      (printLines (lines platform ffmpeg) >>= fun _ => pure (platform.passed && ffmpeg.passed))
        world := by
    rw [← healthy]
    rfl
  rw [prints, run_bind_of_ok (run_printLines _ world)]
  rfl

def heading : Event := .printed "\nframestack doctor\n\n"

/-- What is observed of a report of two checks. -/
def observed (platform ffmpeg : Check) (world : World) : List Event :=
  heading :: Ffmpeg.requests world.currentSettings.programName ["-version"] world ++
    (lines platform ffmpeg).map fun line => .printed (line ++ "\n")

/-- Where FFmpeg can be asked for its version, the report is complete. -/
theorem run_of_accepts {world : World}
    (accepts : Accepts world.currentSettings.programName ["-version"]) :
    ∃ ffmpeg after, Finds world ffmpeg ∧
      run world = .ok ((checkPlatform world.platformVersion).passed && ffmpeg.passed) after ∧
      after.status = world.status ∧
      after.effects =
        world.effects ++ observed (checkPlatform world.platformVersion) ffmpeg world := by
  have begins : world.Leads _ (begun world) := world.leads_noted _ rfl
  obtain ⟨ffmpeg, between, checks, leads, status, required, passed_iff, eq_notFound⟩ :=
    run_checkFfmpeg (begun world) accepts
  have platformRequired : (checkPlatform world.platformVersion).required = true := rfl
  have reports := run_report platformRequired required between
  have effects : between.effects = world.effects ++
      ([heading] ++ Ffmpeg.requests world.currentSettings.programName ["-version"] world) := by
    rw [← Ffmpeg.requests_eq begins.toSameHost]
    exact (begins.trans leads).effects
  refine ⟨ffmpeg, _, ⟨required, passed_iff, eq_notFound⟩,
    (run_eq world).trans ((run_bind_of_ok checks).trans reports), status, ?_⟩
  rw [effects_printed, effects, List.append_assoc]
  rfl

theorem run_of_not_accepts {world : World}
    (unaccepted : ¬ Accepts world.currentSettings.programName ["-version"]) :
    ∃ failure after, run world = .error failure after ∧ (∀ stop, failure ≠ .stopped stop) ∧
      after.effects = world.effects ++
        [heading, .programRequested world.currentSettings.programName ["-version"]] := by
  let asking := (Ffmpeg.announced (begun world)).settled
  have ready : world.Leads [heading] asking :=
    (world.leads_noted _ rfl).trans
      ((Ffmpeg.leads_announced (begun world)).trans (World.leads_settled _))
  obtain ⟨name, reason, content, refusal⟩ := Job.exists_start_refusal unaccepted asking
  refine ⟨.refusedArgument name reason content, _, (run_eq world).trans (run_bind_of_error ?_),
    by rintro _ ⟨⟩, (ready.noted (.programRequested _ _) rfl).effects⟩
  rw [checkFfmpeg, run_bind_of_ok (Ffmpeg.run_program (begun world)),
    run_bind_of_ok (Job.run_settings _)]
  exact run_bind_of_error (run_bind_of_error refusal)

/-! ### Whether FFmpeg is said to be missing -/

/-- The character that tells how a check went, after two blanks. -/
def mark? (event : Event) : Option Char := event.output.toList[2]?

theorem mark?_line (check : Check) :
    mark? (.printed (check.line ++ "\n")) =
      some (if check.passed then '✅' else if check.required then '❌' else '⬚') := by
  rw [mark?, Event.output, Check.line]
  cases check.passed
  · cases check.required <;> simp
  · simp

theorem mark?_notFound (system : String) :
    mark? (.printed ((notFound system).line ++ "\n")) = some '❌' :=
  mark?_line (notFound system)

theorem mark?_of_mem_requests {event : Event} {name : String} {arguments : List String}
    {world : World} (member : event ∈ Ffmpeg.requests name arguments world) :
    mark? event = none := by
  rcases List.mem_cons.mp member with rfl | started
  · rfl
  · rw [Ffmpeg.starts] at started
    split at started
    · cases started
    · rw [List.mem_singleton.mp started]
      rfl

theorem notFound_ne_heading (system : String) :
    .printed ((notFound system).line ++ "\n") ≠ heading := by
  intro same
  have crossed := mark?_notFound system
  rw [same] at crossed
  exact absurd crossed (by decide)

/-- On a platform that will do, nothing else is printed that could be taken for it. -/
theorem notFound_mem_observed_iff {world finding : World} {platform ffmpeg : Check}
    (recent : platform.passed = true) (finds : Finds finding ffmpeg) :
    .printed ((notFound finding.system).line ++ "\n") ∈ observed platform ffmpeg world ↔
      ffmpeg.passed = false := by
  constructor
  · intro member
    by_contra passed
    have passed : ffmpeg.passed = true := by simpa using passed
    have all : ([platform, ffmpeg].filter fun check => check.required && !check.passed) = [] := by
      simp [recent, passed]
    have crossed := mark?_notFound finding.system
    rw [observed, List.cons_append, List.mem_cons, List.mem_append, lines, all] at member
    rcases member with same | asked | reported
    · exact notFound_ne_heading finding.system same
    · rw [mark?_of_mem_requests asked] at crossed
      cases crossed
    · obtain ⟨line, listed, same⟩ := List.mem_map.mp reported
      rw [← same] at crossed
      simp only [List.mem_cons, List.not_mem_nil, or_false] at listed
      rcases listed with rfl | rfl | rfl | rfl
      · rw [mark?_line, recent, if_pos rfl] at crossed
        exact absurd crossed (by decide)
      · rw [mark?_line, passed, if_pos rfl] at crossed
        exact absurd crossed (by decide)
      · exact absurd crossed (by decide)
      · exact absurd crossed (by decide)
  · intro failed
    rw [finds.eq_notFound failed]
    exact List.mem_append_right _ (by simp [lines])

end Doctor

/-! ## The command -/

namespace Program

open CommandLine (Choices)

theorem run_doctor_of_ok {world after : World} {healthy : Bool} {choices : Choices}
    (checks : Doctor.run (ready choices false world) = .ok healthy after) (scene : String) :
    perform ⟨.doctor, scene, choices⟩ world =
      .ok () (if healthy then after else { after with status := 1 }) := by
  refine (run_perform ⟨.doctor, scene, choices⟩ world).trans ((run_bind_of_ok checks).trans ?_)
  cases healthy <;> rfl

/-- The exit status of a checkup tells whether all is well. -/
theorem status_runToExit_doctor {words : List String} {scene : String} {choices : Choices}
    (understood : CommandLine.understand words = .ok ⟨.doctor, scene, choices⟩) (world : World) :
    ∃ found final,
      loadEnvFile (Path.below world.directory [".env"]) world.atStart = .ok () found ∧
      runToExit words world.atStart = .ok () final ∧
      (final.status = 0 ↔
        (Doctor.checkPlatform world.platformVersion).passed = true ∧
          Ffmpeg.ShowsVersion (settingsOf choices found).programName found) := by
  obtain ⟨environment, loads, begins⟩ := exists_runToExit_eq understood world.atStart
  let found : World := { world.atStart with environment }
  let working := ready choices false found
  have shows_iff := Ffmpeg.showsVersion_iff_of_sameHost
    (show found.SameHost working from ⟨rfl, rfl, rfl, rfl, rfl⟩) (settingsOf choices found).programName
  by_cases accepts : Accepts working.currentSettings.programName ["-version"]
  · obtain ⟨ffmpeg, after, finds, checks, status, _⟩ := Doctor.run_of_accepts accepts
    refine ⟨found, _, loads,
      begins.trans (Job.run_tryCatch_of_ok (run_doctor_of_ok checks scene)), ?_⟩
    rw [← finds.passed_iff.trans shows_iff, ← Bool.and_eq_true]
    split
    · next healthy => exact iff_of_true status healthy
    · next unhealthy => exact iff_of_false (by rintro ⟨⟩) unhealthy
  · obtain ⟨failure, after, fails, unstopped, _⟩ := Doctor.run_of_not_accepts accepts
    have performs : perform ⟨.doctor, scene, choices⟩ found = .error failure after :=
      (run_perform ⟨.doctor, scene, choices⟩ found).trans (run_bind_of_error fails)
    have reports := (Job.run_tryCatch_of_error performs).trans (run_report unstopped after)
    refine ⟨found, _, loads, begins.trans reports,
      iff_of_false (by rintro ⟨⟩) fun both => accepts both.2.accepts⟩

/-- On a recent platform all is well exactly if FFmpeg can be started, exits with zero and
shows a version number.  It is said to be missing exactly if it can be asked for a version
and does not do so.  And the exit status tells whether all is well. -/
theorem checkup_passes_iff_version_shown {world : World} {major : Nat} {rest : String}
    (version : world.platformVersion = "v" ++ toString major ++ "." ++ rest)
    (recent : 20 ≤ major) :
    (Job.yields? Doctor.run world = some true ↔
      Ffmpeg.ShowsVersion world.currentSettings.programName world) ∧
    (∃ told, (leaves Doctor.run world).effects = world.effects ++ told ∧
      (.printed ((Doctor.notFound world.system).line ++ "\n") ∈ told ↔
        Accepts world.currentSettings.programName ["-version"] ∧
          ¬ Ffmpeg.ShowsVersion world.currentSettings.programName world)) ∧
    ∀ words scene choices,
      CommandLine.understand words = .ok ⟨.doctor, scene, choices⟩ →
        ∃ found final,
          loadEnvFile (Path.below world.directory [".env"]) world.atStart = .ok () found ∧
          runToExit words world.atStart = .ok () final ∧
          (final.status = 0 ↔
            Ffmpeg.ShowsVersion (settingsOf choices found).programName found) := by
  have passed : (Doctor.checkPlatform world.platformVersion).passed = true := by
    rw [version, Doctor.passed_checkPlatform]
    exact decide_eq_true recent
  rw [← and_assoc]
  constructor
  · by_cases accepts : Accepts world.currentSettings.programName ["-version"]
    · obtain ⟨ffmpeg, after, finds, checks, _, effects⟩ := Doctor.run_of_accepts accepts
      rw [Job.yields?_of_ok checks, leaves_of_ok checks, passed, Bool.true_and, Option.some_inj]
      refine ⟨finds.passed_iff, _, effects, ?_⟩
      rw [Doctor.notFound_mem_observed_iff passed finds, ← finds.passed_iff, Bool.not_eq_true]
      exact (and_iff_right accepts).symm
    · obtain ⟨failure, after, fails, _, effects⟩ := Doctor.run_of_not_accepts accepts
      rw [Job.yields?_of_error fails, leaves_of_error fails]
      refine ⟨iff_of_false (by rintro ⟨⟩) fun shows => accepts shows.accepts, _, effects,
        iff_of_false ?_ fun both => accepts both.1⟩
      intro member
      rcases List.mem_cons.mp member with same | requested
      · exact Doctor.notFound_ne_heading world.system same
      · cases List.mem_singleton.mp requested
  · intro words scene choices understood
    obtain ⟨found, final, loads, runs, status⟩ := status_runToExit_doctor understood world
    exact ⟨found, final, loads, runs, status.trans (and_iff_right passed)⟩

/-! A release is found, and a build without a number is not. -/

/-- A world with nothing but FFmpeg in it, which says one thing whatever it is asked. -/
def worldSaying (text : String) : World :=
  { World.empty with
    files := (FileSystem.empty.add ["bin"] .directory).add ["bin", "ffmpeg"]
      (.program fun _ => ⟨text, "", 0⟩)
    platformVersion := "v20.11.1" }

theorem answers_worldSaying {text : String} (short : text.utf8ByteSize ≤ Ffmpeg.largestReport) :
    Ffmpeg.Answers "ffmpeg" (worldSaying text) text := by
  have fits : (Outcome.mk text "" 0).overflow? Ffmpeg.largestReport = none := by
    rw [Outcome.overflow?, if_neg (Nat.not_lt.mpr short)]
    rfl
  have found : (worldSaying text).program "ffmpeg" =
      .ok (["bin", "ffmpeg"], fun _ => ⟨text, "", 0⟩) := by
    have places : searchDirectories defaultSearch = ["/bin", "/usr/bin"] := by decide
    have unset : (worldSaying text).environment.get? "PATH" = none := rfl
    rw [World.program, if_neg (by decide), unset, Option.getD_none, places, FileSystem.search]
    rfl
  exact ⟨⟨by decide, by decide, by decide⟩, _, _, found, fits, rfl, rfl⟩

def release : World := worldSaying "ffmpeg version 6.1.1 Copyright"

theorem release_passes_checkup :
    Job.yields? Doctor.run release = some true ∧
    ∃ final, runToExit ["doctor"] release.atStart = .ok () final ∧ final.status = 0 := by
  obtain ⟨passes_iff, _, exits⟩ := checkup_passes_iff_version_shown
    (show release.platformVersion = "v" ++ toString 20 ++ "." ++ "11.1" by decide) (by decide)
  have shown : Version.ShownIn "ffmpeg version 6.1.1 Copyright".toList :=
    ⟨"ffmpeg version ".toList, '6', '1', ".1 Copyright".toList, by decide, by decide, by decide⟩
  have shows : Ffmpeg.ShowsVersion "ffmpeg" release := ⟨_, answers_worldSaying (by decide), shown⟩
  obtain ⟨found, final, loads, runs, zero_iff⟩ := exits ["doctor"] "" CommandLine.Choices.none rfl
  have unset : loadEnvFile (Path.below release.directory [".env"]) release.atStart =
      .ok () release.atStart := rfl
  rw [unset] at loads
  cases loads
  exact ⟨passes_iff.mpr shows, final, runs, zero_iff.mpr shows⟩

def unnumberedBuild : World := worldSaying "ffmpeg version git-master"

/-- A build without a number can be started and exits with zero, and is said to be missing. -/
theorem unnumberedBuild_is_said_to_be_missing :
    Ffmpeg.Answers "ffmpeg" unnumberedBuild "ffmpeg version git-master" ∧
    Job.yields? Doctor.run unnumberedBuild = some false ∧
    .printed ((Doctor.notFound unnumberedBuild.system).line ++ "\n") ∈
      (leaves Doctor.run unnumberedBuild).effects ∧
    (leaves (runToExit ["doctor"]) unnumberedBuild.atStart).status = 1 :=
  ⟨answers_worldSaying (by decide), by decide +kernel, by decide +kernel, by decide +kernel⟩

end Program

end Montage
