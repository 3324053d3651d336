import Montage.Proofs.Host.Effects

/-!
# Conduct of jobs

How much is logged decides only which of the records that a job tells are kept:
whatever the level is, the job tells the same and ends in the same way.  Beyond
that a job may be silent, or it may log, or it may also look at the settings, and
so fill them in if they are missing.  Whatever the steps of a job keep to, the job
keeps to as a whole.
-/

namespace Montage

/-! ## Records -/

/-- An entry of the log. -/
structure Record where
  level : Level
  message : String
deriving DecidableEq, Repr

namespace Event

def record? : Event → Option Record
  | .logged level message => some ⟨level, message⟩
  | _ => none

/-- A log keeps the records of the levels that it shows.  All else is seen anyway. -/
def isKept (threshold : Level) : Event → Bool
  | .logged level _ => threshold.shows level
  | _ => true

theorem record?_eq_none {event : Event} (effective : event.isRecord = false) :
    event.record? = none := by
  cases event with
  | logged level message => cases effective
  | _ => rfl

theorem isKept_of_effective {event : Event} (effective : event.isRecord = false)
    (threshold : Level) : event.isKept threshold = true := by
  cases event with
  | logged level message => cases effective
  | _ => rfl

end Event

/-- The records that a log keeps. -/
def Level.kept (threshold : Level) (told : List Record) : List Record :=
  told.filter fun record => threshold.shows record.level

theorem Level.kept_cons_of_shown {threshold : Level} {record : Record}
    (shown : threshold.shows record.level = true) (told : List Record) :
    threshold.kept (record :: told) = record :: threshold.kept told :=
  List.filter_cons_of_pos shown

theorem Level.kept_cons_of_hidden {threshold : Level} {record : Record}
    (hidden : ¬ threshold.shows record.level = true) (told : List Record) :
    threshold.kept (record :: told) = threshold.kept told :=
  List.filter_cons_of_neg hidden

theorem Level.kept_append (threshold : Level) (told more : List Record) :
    threshold.kept (told ++ more) = threshold.kept told ++ threshold.kept more :=
  List.filter_append _ _

theorem filterMap_filter_isKept (threshold : Level) (told : List Event) :
    (told.filter (Event.isKept threshold)).filterMap Event.record? =
      threshold.kept (told.filterMap Event.record?) := by
  induction told with
  | nil => rfl
  | cons event rest induction =>
      cases event with
      | logged level message =>
          by_cases shown : threshold.shows level = true
          · have kept : (Event.logged level message).isKept threshold = true := shown
            rw [List.filter_cons_of_pos kept]
            exact (congrArg (⟨level, message⟩ :: ·) induction).trans
              (Level.kept_cons_of_shown shown _).symm
          · have dropped : ¬ (Event.logged level message).isKept threshold = true := shown
            rw [List.filter_cons_of_neg dropped]
            exact induction.trans (Level.kept_cons_of_hidden shown _).symm
      | _ => exact induction

namespace World

/-- Everything that has been logged. -/
def records (world : World) : List Record := world.journal.filterMap Event.record?

theorem records_noted {event : Event} (effective : event.isRecord = false) (world : World) :
    (world.noted event).records = world.records := by
  simp [records, noted, Event.record?_eq_none effective]

theorem records_logged (world : World) (level : Level) (message : String) :
    (world.logged level message).records =
      world.records ++ world.threshold.kept [⟨level, message⟩] := by
  unfold logged
  split
  · next shown => simp [records, Level.kept, Event.record?, shown]
  · next hidden => simp [records, Level.kept, hidden]

/-- The same world with a log that shows as much as is said. -/
def atLevel (world : World) (threshold : Level) : World := { world with threshold }

/-- The same world with another log. -/
def withLog (world : World) (threshold : Level) (journal : List Event) : World :=
  { world with threshold, journal }

theorem logged_withLog (world : World) (threshold : Level) (journal : List Event)
    (level : Level) (message : String) :
    (world.withLog threshold journal).logged level message =
      world.withLog threshold
        (journal ++ [Event.logged level message].filter (Event.isKept threshold)) := by
  by_cases shown : threshold.shows level = true
  · simp [logged, withLog, Event.isKept, shown]
  · simp [logged, withLog, Event.isKept, shown]

end World

/-! ## Conduct -/

/-- What a job may do besides finding, making and starting things. -/
inductive Conduct where
  | silent
  | logging
  | consulting
deriving DecidableEq, Repr

/-- What has been told on the way from one world to another keeps to a conduct, and
so does what has become of the settings. -/
structure Conduct.Allows (conduct : Conduct) (before : World) (told : List Event)
    (after : World) : Prop where
  environment : after.environment = before.environment
  settings : after.settings = before.settings ∨
    conduct = .consulting ∧ after.settings = some before.currentSettings
  told : conduct = .silent → told.filterMap Event.record? = []

namespace Conduct.Allows

variable {conduct : Conduct} {before between after : World} {told more : List Event}

theorem refl (conduct : Conduct) (world : World) : conduct.Allows world [] world :=
  ⟨rfl, .inl rfl, fun _ => rfl⟩

theorem currentSettings (allows : conduct.Allows before told after) :
    after.currentSettings = before.currentSettings := by
  rcases allows.settings with same | ⟨_, filled⟩
  · rw [World.currentSettings, same, allows.environment, ← World.currentSettings]
  · rw [World.currentSettings, filled, Option.getD_some]

theorem trans (first : conduct.Allows before told between)
    (second : conduct.Allows between more after) : conduct.Allows before (told ++ more) after where
  environment := second.environment.trans first.environment
  settings := by
    rcases second.settings with same | ⟨consulting, filled⟩
    · rw [same]
      exact first.settings
    · rw [filled, first.currentSettings]
      exact .inr ⟨consulting, rfl⟩
  told silent := by rw [List.filterMap_append, first.told silent, second.told silent]; rfl

theorem consulting (allows : Conduct.logging.Allows before told after) :
    Conduct.consulting.Allows before told after where
  environment := allows.environment
  settings := by
    rcases allows.settings with same | ⟨impossible, _⟩
    · exact .inl same
    · cases impossible
  told impossible := by cases impossible

end Conduct.Allows

namespace Job

/-- The end of a run. -/
def ending {α : Type} : Except Failure α → World → EStateM.Result Failure World α
  | .ok value, after => .ok value after
  | .error failure, after => .error failure after

theorem leaves_of_ending {α : Type} {job : Job α} {before after : World}
    {outcome : Except Failure α} (ran : job before = ending outcome after) :
    leaves job before = after := by
  cases outcome with
  | ok value => exact leaves_of_ok ran
  | error failure => exact leaves_of_error ran

/-- From one world a job comes to another, telling something.  Of what it tells the
log keeps what it shows; otherwise the log makes no difference. -/
def Comes {α : Type} (job : Job α) (before : World) (told : List Event)
    (outcome : Except Failure α) (after : World) : Prop :=
  ∀ threshold journal, job (before.withLog threshold journal) =
    ending outcome
      (after.withLog threshold (journal ++ told.filter (Event.isKept threshold)))

/-- A job that keeps to a conduct wherever it begins. -/
def Conducted {α : Type} (conduct : Conduct) (job : Job α) : Prop :=
  ∀ before, ∃ told outcome after,
    Comes job before told outcome after ∧ conduct.Allows before told after

section

variable {conduct : Conduct} {α β : Type} {job : Job α} {next : α → Job β}

/-! ### Steps -/

theorem conducted_pure (value : α) : Conducted conduct (pure value : Job α) := by
  intro before
  refine ⟨[], .ok value, before, fun _ journal => ?_, .refl conduct before⟩
  rw [List.filter_nil, List.append_nil]
  rfl

theorem conducted_fail (failure : Failure) : Conducted conduct (fail failure : Job α) := by
  intro before
  refine ⟨[], .error failure, before, fun _ journal => ?_, .refl conduct before⟩
  rw [List.filter_nil, List.append_nil]
  rfl

theorem conducted_note {event : Event} (effective : event.isRecord = false) :
    Conducted conduct (note event) := by
  intro before
  refine ⟨[event], .ok (), before, fun threshold journal => ?_, rfl, .inl rfl, fun _ => ?_⟩
  · rw [List.filter_cons_of_pos (Event.isKept_of_effective effective threshold), List.filter_nil]
    rfl
  · rw [List.filterMap_cons_none (Event.record?_eq_none effective), List.filterMap_nil]

theorem conducted_log (level : Level) (message : String) :
    Conducted .logging (log level message) := by
  intro before
  refine ⟨[.logged level message], .ok (), before, fun threshold journal => ?_, rfl, .inl rfl,
    fun impossible => by cases impossible⟩
  rw [run_log_eq_logged, World.logged_withLog]
  rfl

theorem conducted_settings : Conducted .consulting settings := by
  intro before
  refine ⟨[], .ok before.currentSettings, before.settled, fun threshold journal => ?_, rfl,
    .inr ⟨rfl, rfl⟩, fun _ => rfl⟩
  rw [run_settings, List.filter_nil, List.append_nil]
  rfl

/-- A change that has nothing to do with settings and log. -/
theorem conducted_modify {change : World → World}
    (environment : ∀ world, (change world).environment = world.environment)
    (settings : ∀ world, (change world).settings = world.settings)
    (apart : ∀ world threshold journal,
      change (world.withLog threshold journal) = (change world).withLog threshold journal) :
    Conducted conduct (modify change : Job Unit) := by
  intro before
  refine ⟨[], .ok (), change before, fun threshold journal => ?_, environment before,
    .inl (settings before), fun _ => rfl⟩
  rw [List.filter_nil, List.append_nil, ← apart]
  rfl

/-! ### Jobs of several steps -/

theorem Conducted.bind (conducted : Conducted conduct job)
    (others : ∀ value, Conducted conduct (next value)) : Conducted conduct (job >>= next) := by
  intro before
  obtain ⟨told, outcome, between, comes, allows⟩ := conducted before
  cases outcome with
  | error failure =>
      exact ⟨told, .error failure, between,
        fun threshold journal => run_bind_of_error (comes threshold journal), allows⟩
  | ok value =>
      obtain ⟨more, outcome, after, goesOn, allowsMore⟩ := others value between
      refine ⟨told ++ more, outcome, after, fun threshold journal => ?_, allows.trans allowsMore⟩
      rw [run_bind_of_ok (comes threshold journal), goesOn, List.filter_append, List.append_assoc]

/-- What a job has told before it fails has been told. -/
theorem Conducted.tryCatch {handler : Failure → Job α} (conducted : Conducted conduct job)
    (handled : ∀ failure, Conducted conduct (handler failure)) :
    Conducted conduct (tryCatch job handler) := by
  intro before
  obtain ⟨told, outcome, between, comes, allows⟩ := conducted before
  cases outcome with
  | ok value =>
      exact ⟨told, .ok value, between,
        fun threshold journal => run_tryCatch_of_ok (comes threshold journal), allows⟩
  | error failure =>
      obtain ⟨more, outcome, after, goesOn, allowsMore⟩ := handled failure between
      refine ⟨told ++ more, outcome, after, fun threshold journal => ?_, allows.trans allowsMore⟩
      rw [run_tryCatch_of_error (comes threshold journal), goesOn, List.filter_append,
        List.append_assoc]

/-- A job may look at the world, so long as it does not mind the log. -/
theorem conducted_get {next : World → Job α}
    (apart : ∀ world threshold journal, next (world.withLog threshold journal) = next world)
    (others : ∀ world, Conducted conduct (next world)) : Conducted conduct (get >>= next) := by
  intro before
  obtain ⟨told, outcome, after, comes, allows⟩ := others before before
  refine ⟨told, outcome, after, fun threshold journal => ?_, allows⟩
  rw [run_bind_of_ok (run_get _), apart, comes]

theorem Conducted.ite {condition : Prop} [Decidable condition] {other : Job α}
    (holds : Conducted conduct job) (fails : Conducted conduct other) :
    Conducted conduct (if condition then job else other) := by
  split
  · exact holds
  · exact fails

theorem Conducted.consulting (conducted : Conducted .logging job) :
    Conducted .consulting job := by
  intro before
  obtain ⟨told, outcome, after, comes, allows⟩ := conducted before
  exact ⟨told, outcome, after, comes, allows.consulting⟩

/-! ### What becomes of a world -/

/-- What a job logs is the same at every level, and it does not change the level. -/
theorem Conducted.exists_told (conducted : Conducted conduct job) (before : World) :
    ∃ told : List Record, (conduct = .silent → told = []) ∧
      ∀ threshold,
        (leaves job (before.atLevel threshold)).threshold = threshold ∧
        (leaves job (before.atLevel threshold)).records =
          before.records ++ threshold.kept told := by
  obtain ⟨told, outcome, after, comes, allows⟩ := conducted before
  refine ⟨told.filterMap Event.record?, allows.told, fun threshold => ?_⟩
  have ran : leaves job (before.atLevel threshold) =
      after.withLog threshold (before.journal ++ told.filter (Event.isKept threshold)) :=
    leaves_of_ending (comes threshold before.journal)
  rw [ran]
  refine ⟨rfl, ?_⟩
  rw [World.records, World.withLog, List.filterMap_append, filterMap_filter_isKept, World.records]

theorem Conducted.allowed (conducted : Conducted conduct job) (before : World) :
    ∃ told, conduct.Allows before told (leaves job before) := by
  obtain ⟨told, outcome, after, comes, environment, settings, quiet⟩ := conducted before
  have ran : leaves job before = _ :=
    leaves_of_ending (comes before.threshold before.journal)
  rw [ran]
  exact ⟨told, environment, settings, quiet⟩

/-- Only what looks at the settings fills them in. -/
theorem Conducted.settings_leaves (conducted : Conducted .logging job) (before : World) :
    (leaves job before).settings = before.settings := by
  obtain ⟨_, allows⟩ := conducted.allowed before
  rcases allows.settings with same | ⟨impossible, _⟩
  · exact same
  · cases impossible

end

/-! ## Consulting settings -/

/-- A job acts as it would if the settings that it finds had been settled
before. -/
def ActsOnSettings {α : Type} (job : Job α) : Prop := ∀ world, job world = job world.settled

theorem actsOnSettings_bind_settings {α : Type} (next : Settings → Job α) :
    ActsOnSettings (settings >>= next) := by
  intro world
  rw [run_bind_of_ok (run_settings world), run_bind_of_ok (run_settings world.settled)]
  rfl

theorem settings_actsOnSettings : ActsOnSettings settings := by
  intro world
  rw [run_settings world, run_settings world.settled]
  rfl

theorem ActsOnSettings.bind {α β : Type} {job : Job α} (acts : ActsOnSettings job)
    (next : α → Job β) : ActsOnSettings (job >>= next) :=
  fun world => run_bind_of_eq (acts world)

/-- What acts on the settings leaves those settled that it finds. -/
theorem ActsOnSettings.settings_leaves {α : Type} {job : Job α} (acts : ActsOnSettings job)
    (conducted : Conducted .consulting job) (before : World) :
    (leaves job before).settings = some before.currentSettings := by
  rw [leaves_eq (acts before)]
  obtain ⟨_, allows⟩ := conducted.allowed before.settled
  rcases allows.settings with same | ⟨_, filled⟩
  · exact same
  · exact filled

end Job

end Montage
