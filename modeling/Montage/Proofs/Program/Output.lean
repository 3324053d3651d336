import Montage.Proofs.Program.Rendering
import Montage.Proofs.Program.Reports
import Montage.Proofs.Value.Reloading

/-!
# What the program prints

A preview in JSON prints one line that reads as the arguments of its plan, or nothing
at all.  It prints nothing exactly if it comes to no plan, and then says why at the end
of its complaints.  Records never get between what is printed.
-/

namespace Montage

open Job (leaves run_bind_of_ok run_bind_of_error)

/-! ## Streams -/

namespace World

/-- What has been printed so far. -/
def stdout (world : World) : String := String.join (world.journal.map Event.output)

/-- What has been complained of or logged so far. -/
def stderr (world : World) : String := String.join (world.journal.map Event.complaint)

/-- The world of a program that has just been started. -/
def atStart (world : World) : World :=
  { world with settings := none, threshold := .info, journal := [], status := 0 }

theorem join_concat (texts : List String) (last : String) :
    String.join (texts ++ [last]) = String.join texts ++ last := by
  rw [← String.toList_inj, String.toList_append, String.toList_join, String.toList_join,
    List.flatMap_append]
  simp

/-- Records are not printed. -/
theorem stdout_eq_join_effects (world : World) :
    world.stdout = String.join (world.effects.map Event.output) := by
  rw [stdout, effects, ← String.toList_inj, String.toList_join, String.toList_join]
  induction world.journal with
  | nil => rfl
  | cons event rest induction =>
      cases event with
      | logged level message => simpa [Event.isRecord, Event.output] using induction
      | _ => simpa [Event.isRecord] using induction

theorem stderr_noted (world : World) (event : Event) :
    (world.noted event).stderr = world.stderr ++ event.complaint := by
  rw [stderr, stderr, noted, List.map_append, List.map_singleton, join_concat]

/-- Where nothing but records has been written, whole lines have. -/
theorem stderr_of_no_effects {world : World} (quiet : world.effects = []) :
    world.stderr = "" ∨ ∃ earlier, world.stderr = earlier ++ "\n" := by
  rcases List.eq_nil_or_concat world.journal with empty | ⟨earlier, last, ends⟩
  · rw [stderr, empty]
    exact .inl rfl
  · have record : last.isRecord = true := by
      have kept := List.filter_eq_nil_iff.mp quiet last (by rw [ends]; simp)
      simpa using kept
    right
    cases last with
    | logged level message =>
        refine ⟨String.join (earlier.map Event.complaint) ++
          ("[" ++ level.name ++ "]: " ++ message), ?_⟩
        rw [stderr, ends, List.concat_eq_append, List.map_append, List.map_singleton, join_concat,
          String.append_assoc]
        rfl
    | _ => cases record

end World

/-! ## Lists of texts in JSON -/

namespace Value

theorem isJson_texts (texts : List String) : IsJson (.list (texts.map .text)) := by
  refine .list fun element listed => ?_
  obtain ⟨text, _, rfl⟩ := List.mem_map.mp listed
  exact .text text

theorem settled_texts (texts : List String) :
    (Value.list (texts.map .text)).settled = .list (texts.map .text) := by
  rw [settled]
  refine congrArg Value.list ?_
  induction texts with
  | nil => rfl
  | cons text rest induction =>
      rw [List.map_cons, settledAll, induction, settled]

namespace Writer

theorem le_toNat_hexDigit : ∀ value < 16, 0x20 ≤ (hexDigit value).toNat := by decide

theorem le_toNat_of_mem_escape {written character : Char}
    (member : character ∈ escape written) : 0x20 ≤ character.toNat := by
  have short {letter : Char} (visible : 0x20 ≤ letter.toNat)
      (listed : character ∈ ['\\', letter]) : 0x20 ≤ character.toNat := by
    rcases List.mem_cons.mp listed with rfl | last
    · decide
    · rw [List.mem_singleton.mp last]
      exact visible
  unfold escape at member
  split at member
  · exact short (by decide) member
  · exact short (by decide) member
  · exact short (by decide) member
  · exact short (by decide) member
  · exact short (by decide) member
  · exact short (by decide) member
  · exact short (by decide) member
  · split at member
    · next control =>
        have high := le_toNat_hexDigit (written.toNat / 16) (by omega)
        have low := le_toNat_hexDigit (written.toNat % 16) (by omega)
        simp only [List.mem_cons, List.not_mem_nil, or_false] at member
        rcases member with rfl | rfl | rfl | rfl | rfl | rfl
        · decide
        · decide
        · decide
        · decide
        · exact high
        · exact low
    · next plain =>
        rw [List.mem_singleton.mp member]
        omega

theorem le_toNat_of_mem_quoted {text : String} {character : Char}
    (member : character ∈ quoted text) : 0x20 ≤ character.toNat := by
  rw [quoted, List.mem_cons, List.mem_append, List.mem_singleton] at member
  rcases member with rfl | escaped | rfl
  · decide
  · obtain ⟨written, _, inEscape⟩ := List.mem_flatMap.mp escaped
    exact le_toNat_of_mem_escape inEscape
  · decide

theorem le_toNat_of_mem_elements {texts : List String} {character : Char}
    (member : character ∈ elements (texts.map .text)) : 0x20 ≤ character.toNat := by
  induction texts with
  | nil => cases member
  | cons first rest induction =>
      cases rest with
      | nil =>
          rw [List.map_cons, List.map_nil, elements, value] at member
          exact le_toNat_of_mem_quoted member
      | cons second rest =>
          rw [List.map_cons, List.map_cons, elements, value, List.mem_append, List.mem_cons]
            at member
          rcases member with inFirst | rfl | inRest
          · exact le_toNat_of_mem_quoted inFirst
          · decide
          · exact induction inRest

end Writer

/-- A list of texts is written on one line, without control characters. -/
theorem le_toNat_of_mem_write_texts {texts : List String} {character : Char}
    (member : character ∈ (Value.list (texts.map .text)).write.toList) :
    0x20 ≤ character.toNat := by
  rw [write, String.toList_ofList, Writer.value, List.mem_cons, List.mem_append,
    List.mem_singleton] at member
  rcases member with rfl | inElements | rfl
  · decide
  · exact Writer.le_toNat_of_mem_elements inElements
  · decide

end Value

/-! ## Reports of failures -/

namespace Program

open CommandLine (Choices)

theorem Unready.not_stopped {scene : String} {world : World} {failure : Failure}
    (why : Unready scene world failure) (reason : CommandLine.Stop) :
    failure ≠ .stopped reason := by
  rintro rfl
  cases why with
  | unloadable unloadable =>
      generalize same : Failure.stopped reason = failure at unloadable
      cases unloadable with
      | @unreadable path fault _ _ => cases fault <;> cases same
      | _ => cases same

theorem run_report {failure : Failure} (unstopped : ∀ reason, failure ≠ .stopped reason)
    (world : World) :
    report failure world =
      .ok ()
        { (world.logged .debug (failure.trace (world.frames failure))).noted
            (.complained ("Error: " ++ failure.message ++ "\n")) with status := 1 } := by
  have reports : report failure = (do
      Job.log .debug (failure.trace ((← get).frames failure))
      Job.complain ("Error: " ++ failure.message)
      modify fun world => { world with status := 1 }) := by
    cases failure with
    | stopped reason => exact absurd rfl (unstopped reason)
    | _ => rfl
  rw [reports, run_bind_of_ok (Job.run_get world),
    run_bind_of_ok (Job.run_log_eq_logged _ _ world), run_bind_of_ok (Job.run_complain _ _)]
  rfl

/-! ## Status -/

theorem status_logged (world : World) (level : Level) (message : String) :
    (world.logged level message).status = world.status := by
  unfold World.logged
  split <;> rfl

theorem status_worldOf (graph : Graph) (world : World) :
    (Render.worldOf graph world).status = world.status := by
  have warned (warnings : List Warning) (world : World) :
      (Render.warned world warnings).status = world.status := by
    induction warnings generalizing world with
    | nil => rfl
    | cons warning rest induction =>
        rw [Render.warned, List.foldl_cons, ← Render.warned, induction, status_logged]
  rw [Render.worldOf, warned, status_logged, status_logged]
  rfl

/-! ## Previews in JSON -/

/-- A preview in JSON of a scene that has a graph does no more than log and print. -/
theorem run_compile_json_of_ready {scene : String} {world : World} {root : Node} {graph : Graph}
    (prepared : Ready scene world root graph) {choices : Choices} (json : choices.json = true) :
    ∃ after, compile scene choices world = .ok () after ∧ after.status = world.status ∧
      after.effects = world.effects ++
        [.printed ((Value.list ((planOf choices world graph).arguments.map .text)).write ++
          "\n")] := by
  obtain ⟨describes, compiled⟩ := prepared
  let begun := ready choices true world
  have same : world.SameHost begun := ⟨rfl, rfl, rfl, rfl, rfl⟩
  obtain ⟨path, _, loads⟩ := Scene.exists_load_of_describes (describes.sameHost same)
  let loaded := Scene.foundAt path begun
  have settings : loaded.currentSettings = settingsOf choices world :=
    World.currentSettings_logged begun _ _
  have plans := Render.run_plan compiled Render.noOptions loaded
  rw [settings] at plans
  have prints : display root true loaded = .ok () _ := run_bind_of_ok plans
  have compiles : compile scene choices world = display root choices.json loaded :=
    (run_perform ⟨.compile, scene, choices⟩ world).trans (run_bind_of_ok loads)
  rw [json] at compiles
  refine ⟨_, compiles.trans prints, ?_, ?_⟩
  · exact (status_worldOf graph loaded).trans (status_logged begun _ _)
  · have leads := (Scene.leads_foundAt path begun).trans (Render.leads_worldOf graph loaded)
    exact (leads.noted (.printed _) rfl).effects

/-- A preview that fails has printed nothing, and its report is what it complains of last. -/
theorem run_report_of_unready {scene : String} {world : World} {failure : Failure}
    (why : Unready scene world failure) (untouched : world.effects = []) (choices : Choices) :
    ∃ final, tryCatch (compile scene choices) report world = .ok () final ∧
      final.stdout = "" ∧ final.status = 1 ∧
      ∃ earlier, final.stderr = earlier ++ ("Error: " ++ failure.message ++ "\n") ∧
        (earlier = "" ∨ ∃ lines, earlier = lines ++ "\n") := by
  obtain ⟨after, fails, leads⟩ := run_compile_of_unready why choices
  have reports := run_report why.not_stopped after
  let logged := after.logged .debug (failure.trace (after.frames failure))
  let complaint : Event := .complained ("Error: " ++ failure.message ++ "\n")
  have quiet : logged.effects = [] := by
    have begun : (configured choices world).effects = [] := untouched
    rw [World.effects_logged, leads.effects, begun, List.append_nil]
  refine ⟨_, (Job.run_tryCatch_of_error fails).trans reports, ?_, rfl, logged.stderr,
    logged.stderr_noted complaint, World.stderr_of_no_effects quiet⟩
  change (logged.noted complaint).stdout = ""
  rw [World.stdout_eq_join_effects, World.effects_noted rfl, quiet]
  rfl

/-- A scene is not both ready to be shown and not. -/
theorem Ready.not_unready {scene : String} {world : World} {root : Node} {graph : Graph}
    (prepared : Ready scene world root graph) (failure : Failure) :
    ¬ Unready scene world failure := by
  intro why
  let asked : Choices := { Choices.none with json := true }
  obtain ⟨_, shows, _⟩ :=
    run_compile_json_of_ready prepared (show asked.json = true from rfl)
  obtain ⟨_, fails, _⟩ := run_compile_of_unready why asked
  rw [shows] at fails
  cases fails

/-- There is one reason why a scene cannot be shown. -/
theorem Unready.unique {scene : String} {world : World} {failure other : Failure}
    (why : Unready scene world failure) (also : Unready scene world other) : other = failure := by
  obtain ⟨_, fails, _⟩ := run_compile_of_unready why Choices.none
  obtain ⟨_, failsToo, _⟩ := run_compile_of_unready also Choices.none
  rw [fails] at failsToo
  cases failsToo
  rfl

/-- A command line that is understood is worked off once the settings file has been read, and
its failure is reported. -/
theorem exists_runToExit_eq {words : List String} {invocation : CommandLine.Invocation}
    (understood : CommandLine.understand words = .ok invocation) (world : World) :
    ∃ environment,
      loadEnvFile (Path.below world.directory [".env"]) world =
        .ok () { world with environment } ∧
      runToExit words world =
        tryCatch (perform invocation) report { world with environment } := by
  obtain ⟨environment, loads⟩ := run_loadEnvFile (Path.below world.directory [".env"]) world
  have asks : defaultEnvFile world = .ok (Path.below world.directory [".env"]) world := rfl
  refine ⟨environment, loads, ?_⟩
  rw [runToExit, run_bind_of_ok asks, run_bind_of_ok loads, run_of_understood understood]

/-- However a preview in JSON is asked for, it prints one line, which reads as the list of the
arguments of its plan, and the exit status is zero; or it comes to no plan, prints nothing, and
complains last of the failure, and the exit status is one. -/
theorem compile_json_prints_arguments_or_nothing {words : List String} {scene : String}
    {choices : Choices}
    (understood : CommandLine.understand words = .ok ⟨.compile, scene, choices⟩)
    (json : choices.json = true) (world : World) :
    ∃ found final,
      loadEnvFile (Path.below world.directory [".env"]) world.atStart = .ok () found ∧
      runToExit words world.atStart = .ok () final ∧
      (∀ root graph, Ready scene found root graph →
        ∃ planned line,
          Job.yields? (Render.plan root Render.noOptions) (configured choices found) =
            some planned ∧
          final.stdout = line ++ "\n" ∧
          (∀ character ∈ line.toList, 0x20 ≤ character.toNat) ∧
          Value.read? line = some (.list (planned.arguments.map .text)) ∧
          final.status = 0) ∧
      (∀ failure, Unready scene found failure →
        final.stdout = "" ∧ final.status = 1 ∧
        ∃ earlier, final.stderr = earlier ++ ("Error: " ++ failure.message ++ "\n") ∧
          (earlier = "" ∨ ∃ lines, earlier = lines ++ "\n")) ∧
      ((∃ root graph, Ready scene found root graph) ∨ ∃ failure, Unready scene found failure) := by
  obtain ⟨environment, loads, begins⟩ := exists_runToExit_eq understood world.atStart
  let found : World := { world.atStart with environment }
  have untouched : found.effects = [] := rfl
  refine ⟨found, ?_⟩
  rcases ready_or_unready scene found with ⟨root, graph, prepared⟩ | ⟨failure, unready⟩
  · obtain ⟨final, compiles, status, effects⟩ := run_compile_json_of_ready prepared json
    refine ⟨final, loads, begins.trans (Job.run_tryCatch_of_ok compiles), ?_,
      fun failure unready => absurd unready (prepared.not_unready failure),
      .inl ⟨root, graph, prepared⟩⟩
    intro other otherGraph same
    have sameRoot : other = root := same.1.unique prepared.1
    subst sameRoot
    have sameGraph : otherGraph = graph := Except.ok.inj (same.2.symm.trans prepared.2)
    subst sameGraph
    have plans := Render.run_plan prepared.2 Render.noOptions (configured choices found)
    let arguments := (planOf choices found otherGraph).arguments
    let line := (Value.list (arguments.map .text)).write
    refine ⟨_, line, Job.yields?_of_ok plans, ?_,
      fun _ => Value.le_toNat_of_mem_write_texts, ?_, status⟩
    · rw [World.stdout_eq_join_effects, effects, untouched]
      exact String.empty_append
    · exact (Value.read?_write (Value.isJson_texts _)).trans
        (congrArg some (Value.settled_texts _))
  · obtain ⟨final, reports, ends⟩ := run_report_of_unready unready untouched choices
    refine ⟨final, loads, begins.trans reports,
      fun root graph prepared => absurd unready (prepared.not_unready failure), ?_,
      .inr ⟨failure, unready⟩⟩
    intro other same
    rw [unready.unique same]
    exact ends

/-! A scene of any name can be previewed, and one is. -/

theorem understand_compile_json (scene : String) :
    CommandLine.understand ["compile", "--json", "--", scene] =
      .ok ⟨.compile, scene, { Choices.none with json := true }⟩ := by
  rfl

theorem clip_arguments_are_printed :
    ∃ final line,
      runToExit ["compile", "--json", "--", "clip.json"] clipWorld.atStart = .ok () final ∧
      final.stdout = line ++ "\n" ∧ final.status = 0 ∧
      Value.read? line =
        some (.list (["-y", "-i", "a.mp4", "-filter_complex", "[0]null[s0]", "-map", "[s0]",
          "output.mp4"].map .text)) := by
  obtain ⟨found, final, loads, runs, prints, _, _⟩ :=
    compile_json_prints_arguments_or_nothing (understand_compile_json "clip.json") rfl clipWorld
  have unset : loadEnvFile (Path.below clipWorld.directory [".env"]) clipWorld.atStart =
      .ok () clipWorld.atStart := rfl
  rw [unset] at loads
  cases loads
  let graph : Graph := ⟨["a.mp4"], [], .input 0, []⟩
  have loaded : (Job.yields? (Scene.load "clip.json") clipWorld.atStart).map Node.compile =
      some (.ok graph) := by decide +kernel
  obtain ⟨root, yields, compiled⟩ := Option.map_eq_some_iff.mp loaded
  obtain ⟨_, loads⟩ := Job.exists_of_yields? yields
  have ready : Ready "clip.json" clipWorld.atStart root graph :=
    ⟨(Scene.describes_of_load loads).1, compiled⟩
  obtain ⟨planned, line, plans, printed, _, reads, status⟩ := prints root graph ready
  rw [Job.yields?_of_ok (Render.run_plan compiled _ _)] at plans
  cases plans
  exact ⟨final, line, runs, printed, status, reads⟩

end Program

end Montage
