import Montage.Settings.Basic

/-!
# What settings go by

Each setting has its sources in order: what is given, the environment, the
default.  A text counts if it is not empty, a switch in the environment if it is
not blank.  The settings are those that follow this order.
-/

namespace Montage

/-- Two texts that differ at most in the case of their ASCII letters. -/
def Text.EqualButCase (first second : String) : Prop :=
  first.toList.map Char.toLower = second.toList.map Char.toLower

namespace Settings

/-- The first of some texts that is there and not empty. -/
inductive FirstPresent : List (Option String) → String → Prop where
  | here {text : String} {rest : List (Option String)} :
      text ≠ "" → FirstPresent (some text :: rest) text
  | later {first : Option String} {rest : List (Option String)} {text : String} :
      first = none ∨ first = some "" → FirstPresent rest text →
      FirstPresent (first :: rest) text

/-- A switch as it is given, or else as the environment has it.  There a few words
switch it on, any other switches it off, and blanks leave it as it is. -/
inductive Switched (given : Option Bool) (ambient : Option String) (standard : Bool) :
    Bool → Prop where
  | given {truth : Bool} : given = some truth → Switched given ambient standard truth
  | on {word : String} : given = none → ambient = some word → Text.trim word ≠ "" →
      (∃ yes ∈ ["1", "true", "yes"], Text.EqualButCase (Text.trim word) yes) →
      Switched given ambient standard true
  | off {word : String} : given = none → ambient = some word → Text.trim word ≠ "" →
      (∀ yes ∈ ["1", "true", "yes"], ¬ Text.EqualButCase (Text.trim word) yes) →
      Switched given ambient standard false
  | standard : given = none → (∀ word ∈ ambient, Text.trim word = "") →
      Switched given ambient standard standard

/-- Settings that follow the order of their sources. -/
structure Precedence (given : GivenSettings) (environment : Environment)
    (settings : Settings) : Prop where
  program : FirstPresent [given.program, environment.get? "FFMPEG_PATH", some "ffmpeg"]
    settings.program
  outputPath : FirstPresent [given.outputPath, environment.get? "OUTPUT_PATH", some "output.mp4"]
    settings.outputPath
  overwrite : Switched given.overwrite (environment.get? "OVERWRITE") true settings.overwrite
  verbose : Switched given.verbose (environment.get? "VERBOSE") false settings.verbose

/-! ## Texts -/

theorem FirstPresent.ne_empty {sources : List (Option String)} {text : String}
    (first : FirstPresent sources text) : text ≠ "" := by
  induction first with
  | here nonempty => exact nonempty
  | later _ _ induction => exact induction

theorem FirstPresent.unique {sources : List (Option String)} {text other : String}
    (first : FirstPresent sources text) (second : FirstPresent sources other) : text = other := by
  induction first with
  | here nonempty =>
      cases second with
      | here _ => rfl
      | later missing _ => simp [nonempty] at missing
  | later missing _ induction =>
      cases second with
      | here nonempty => simp [nonempty] at missing
      | later _ found => exact induction found

theorem present?_eq_none_iff {text : Option String} :
    present? text = none ↔ text = none ∨ text = some "" := by
  cases text with
  | none => simp [present?]
  | some text => simp [present?, Option.filter_eq_none_iff]

theorem present?_eq_some_iff {text : Option String} {found : String} :
    present? text = some found ↔ text = some found ∧ found ≠ "" := by
  simp [present?, Option.filter_eq_some_iff]

theorem firstPresent_textSetting (given ambient : Option String) {standard : String}
    (nonempty : standard ≠ "") :
    FirstPresent [given, ambient, some standard] (textSetting given ambient standard) := by
  rw [textSetting]
  cases first : present? given with
  | some text =>
      obtain ⟨rfl, present⟩ := present?_eq_some_iff.mp first
      exact .here present
  | none =>
      refine .later (present?_eq_none_iff.mp first) ?_
      cases second : present? ambient with
      | some text =>
          obtain ⟨rfl, present⟩ := present?_eq_some_iff.mp second
          exact .here present
      | none => exact .later (present?_eq_none_iff.mp second) (.here nonempty)

theorem firstPresent_iff {given ambient : Option String} {standard text : String}
    (nonempty : standard ≠ "") :
    FirstPresent [given, ambient, some standard] text ↔
      text = textSetting given ambient standard := by
  have setting := firstPresent_textSetting given ambient nonempty
  constructor
  · intro first
    exact first.unique setting
  · rintro rfl
    exact setting

/-! ## Switches -/

theorem lowerCase_eq_iff {text word : String} (lower : word.toList.map Char.toLower = word.toList) :
    lowerCase text = word ↔ Text.EqualButCase text word := by
  rw [Text.EqualButCase, lower, lowerCase, ← String.toList_inj, String.toList_ofList]

theorem lowerCase_eq_empty_iff {text : String} : lowerCase text = "" ↔ text = "" := by
  rw [lowerCase_eq_iff rfl, Text.EqualButCase, ← String.toList_inj]
  exact List.map_eq_nil_iff

theorem isYes_lowerCase_iff {text : String} :
    isYes (lowerCase text) = true ↔ ∃ yes ∈ ["1", "true", "yes"], Text.EqualButCase text yes := by
  have one : lowerCase text = "1" ↔ Text.EqualButCase text "1" := lowerCase_eq_iff rfl
  have true' : lowerCase text = "true" ↔ Text.EqualButCase text "true" := lowerCase_eq_iff rfl
  have yes : lowerCase text = "yes" ↔ Text.EqualButCase text "yes" := lowerCase_eq_iff rfl
  simp only [isYes, Bool.or_eq_true, decide_eq_true_eq, List.mem_cons, exists_eq_or_imp,
    List.not_mem_nil, or_false, exists_eq_left, or_assoc, one, true', yes]

theorem switchSetting_of_blank {ambient : Option String} (standard : Bool)
    (blank : Text.trim (ambient.getD "") = "") : switchSetting ambient standard = standard := by
  rw [switchSetting]
  exact if_pos (lowerCase_eq_empty_iff.mpr blank)

theorem switchSetting_of_word {word : String} (standard : Bool) (present : Text.trim word ≠ "") :
    switchSetting (some word) standard = isYes (lowerCase (Text.trim word)) := by
  rw [switchSetting]
  exact if_neg (mt lowerCase_eq_empty_iff.mp present)

theorem switched_switchSetting (ambient : Option String) (standard : Bool) :
    Switched none ambient standard (switchSetting ambient standard) := by
  by_cases blank : Text.trim (ambient.getD "") = ""
  · rw [switchSetting_of_blank standard blank]
    refine .standard rfl ?_
    rintro word rfl
    exact blank
  · cases ambient with
    | none => exact absurd rfl blank
    | some word =>
        have present : Text.trim word ≠ "" := blank
        rw [switchSetting_of_word standard present]
        cases spoken : isYes (lowerCase (Text.trim word)) with
        | true => exact .on rfl rfl present (isYes_lowerCase_iff.mp spoken)
        | false =>
            refine .off rfl rfl present ?_
            intro yes listed same
            have heard := isYes_lowerCase_iff.mpr ⟨yes, listed, same⟩
            rw [spoken] at heard
            cases heard

theorem Switched.eq_switchSetting {ambient : Option String} {standard truth : Bool}
    (switched : Switched none ambient standard truth) :
    truth = switchSetting ambient standard := by
  cases switched with
  | given same => cases same
  | @on word _ same present heard =>
      cases same
      rw [switchSetting_of_word standard present, isYes_lowerCase_iff.mpr heard]
  | @off word _ same present unheard =>
      cases same
      rw [switchSetting_of_word standard present, eq_comm, ← Bool.not_eq_true,
        isYes_lowerCase_iff]
      rintro ⟨yes, listed, alike⟩
      exact unheard yes listed alike
  | standard _ blank =>
      refine (switchSetting_of_blank _ ?_).symm
      cases ambient with
      | none => rfl
      | some word => exact blank word rfl

theorem switched_iff {given : Option Bool} {ambient : Option String} {standard truth : Bool} :
    Switched given ambient standard truth ↔
      truth = given.getD (switchSetting ambient standard) := by
  cases given with
  | some chosen =>
      constructor
      · intro switched
        cases switched with
        | given same => exact (Option.some.inj same).symm
        | on impossible _ _ _ => cases impossible
        | off impossible _ _ _ => cases impossible
        | standard impossible _ => cases impossible
      · intro same
        rw [same, Option.getD_some]
        exact .given rfl
  | none =>
      rw [Option.getD_none]
      constructor
      · exact Switched.eq_switchSetting
      · intro same
        rw [same]
        exact switched_switchSetting ambient standard

/-- The settings that are made are those that follow the order of their sources, and
no others. -/
theorem precedence_iff {given : GivenSettings} {environment : Environment} {settings : Settings} :
    Precedence given environment settings ↔ settings = make given environment := by
  have program : FirstPresent [given.program, environment.get? "FFMPEG_PATH", some "ffmpeg"]
      settings.program ↔
        settings.program = textSetting given.program (environment.get? "FFMPEG_PATH") "ffmpeg" :=
    firstPresent_iff (by decide)
  have outputPath :
      FirstPresent [given.outputPath, environment.get? "OUTPUT_PATH", some "output.mp4"]
        settings.outputPath ↔
        settings.outputPath =
          textSetting given.outputPath (environment.get? "OUTPUT_PATH") "output.mp4" :=
    firstPresent_iff (by decide)
  constructor
  · intro follows
    calc
      settings = ⟨settings.program, settings.outputPath, settings.overwrite, settings.verbose⟩ :=
        rfl
      _ = make given environment := by
        rw [program.mp follows.program, outputPath.mp follows.outputPath,
          switched_iff.mp follows.overwrite, switched_iff.mp follows.verbose]
        rfl
  · rintro rfl
    exact ⟨program.mpr rfl, outputPath.mpr rfl, switched_iff.mpr rfl, switched_iff.mpr rfl⟩

end Settings

end Montage
