import Mathlib.Data.List.Induction
import Mathlib.Data.List.Infix
import Montage.Host.Files
import Montage.Proofs.Host.Effects
import Montage.Proofs.Path.Route

/-!
# The search for a root

A search for a root goes up from a directory, one look at each, and ends at the
top one at the latest.  What it finds is the deepest root on the way; it fails
exactly if no directory on the way is a root.
-/

namespace Montage

namespace Path

/-! ## What the path of a location stands in -/

/-- The slash before the last name is the first one from the end on. -/
theorem beforeLastName_append_slash {name : List Char} (present : name ≠ [])
    (slashFree : '/' ∉ name) (front : List Char) :
    beforeLastName (front ++ '/' :: name) = front := by
  have turned : (front ++ '/' :: name).reverse = name.reverse ++ '/' :: front.reverse := by
    simp
  have different : ∀ character ∈ name.reverse, character ≠ '/' := by
    rintro _ member rfl
    exact slashFree (List.mem_reverse.mp member)
  have untrimmed : (name.reverse ++ '/' :: front.reverse).dropWhile (· = '/') =
      name.reverse ++ '/' :: front.reverse := by
    cases characters : name.reverse with
    | nil => exact absurd (List.reverse_eq_nil_iff.mp characters) present
    | cons last others =>
        have unlike : last ≠ '/' := different last (by rw [characters]; exact List.mem_cons_self)
        rw [List.cons_append, List.dropWhile_cons_of_neg (by simpa using unlike)]
  have passed : ∀ character ∈ name.reverse, decide (character ≠ '/') = true :=
    fun character member => decide_eq_true (different character member)
  rw [beforeLastName, turned, untrimmed, List.dropWhile_append_of_pos passed,
    List.dropWhile_cons_of_neg (by simp), List.tail_cons, List.reverse_reverse]

theorem IsName.toList_ne_nil {name : String} (isName : IsName name) : name.toList ≠ [] :=
  fun none => isName.notEmpty (String.toList_eq_nil_iff.mp none)

theorem ofLocation_concat {location : Location} (present : location ≠ []) (name : String) :
    ofLocation (location ++ [name]) = ofLocation location ++ "/" ++ name := by
  rw [ofLocation, join, String.intercalate_append_of_ne_nil present (List.cons_ne_nil _ _),
    ofLocation, join, String.intercalate_singleton]
  simp only [String.append_assoc]

/-- The path of a location that is not the top one goes on after its slash. -/
theorem exists_toList_ofLocation {location : Location} (present : location ≠ [])
    (areNames : ∀ name ∈ location, IsName name) :
    ∃ rest, rest ≠ [] ∧ (ofLocation location).toList = '/' :: rest := by
  refine ⟨(join location).toList, ?_, by simp [ofLocation]⟩
  intro none
  have same : parts (join location) = [""] := by
    rw [String.toList_eq_nil_iff.mp none]
    rfl
  rw [parts_join present fun name member => (areNames name member).slashFree] at same
  rw [same] at areNames
  exact (areNames "" List.mem_cons_self).notEmpty rfl

theorem parent_top : parent (ofLocation []) = ofLocation [] := by decide

theorem parent_ofLocation_concat {location : Location} {last : String}
    (areNames : ∀ name ∈ location ++ [last], IsName name) :
    parent (ofLocation (location ++ [last])) = ofLocation location := by
  obtain ⟨above, isName⟩ := List.forall_mem_append.mp areNames
  have isName := isName last List.mem_cons_self
  have cut := beforeLastName_append_slash isName.toList_ne_nil isName.slashFree
  cases location with
  | nil =>
      have characters : (ofLocation ([] ++ [last])).toList = [] ++ '/' :: last.toList := by
        simp [ofLocation, join]
      rw [parent, parentList, characters, cut, if_pos rfl]
      rfl
  | cons first rest =>
      obtain ⟨others, some, opened⟩ := exists_toList_ofLocation (List.cons_ne_nil first rest) above
      have characters : (ofLocation (first :: rest ++ [last])).toList =
          (ofLocation (first :: rest)).toList ++ '/' :: last.toList := by
        rw [ofLocation_concat (List.cons_ne_nil _ _)]
        simp
      rw [parent, parentList, characters, cut, opened, if_neg (List.cons_ne_nil _ _),
        if_neg (by simpa using some), ← opened, String.ofList_toList]

theorem ofLocation_concat_ne {location : Location} {last : String}
    (areNames : ∀ name ∈ location ++ [last], IsName name) :
    ofLocation location ≠ ofLocation (location ++ [last]) := by
  intro same
  have led := congrArg (resolve []) same
  rw [resolve_ofLocation (List.forall_mem_append.mp areNames).1, resolve_ofLocation areNames] at led
  exact absurd led (by simp)

theorem endsInSlash_of_isName {name : String} (isName : IsName name) :
    endsInSlash name = false := by
  apply decide_eq_false
  intro last
  exact isName.slashFree (List.mem_of_getLast? last)

theorem below_ofLocation {location : Location} {name : String}
    (areNames : ∀ name ∈ location, IsName name) (isName : IsName name) :
    below [] [ofLocation location, name] = ofLocation (location ++ [name]) := by
  have notEmpty : ofLocation location ≠ "" := by simp [ofLocation]
  have both : [ofLocation location, name].filter (· ≠ "") = [ofLocation location, name] := by
    simp [notEmpty, isName.notEmpty]
  have alone : join [name] = name := by simp [join]
  have led : follow location [name] = location ++ [name] := isName.step_eq location
  rw [below, both, join_cons_cons, alone, parts_append_slash, follow_append,
    parts_ofLocation location areNames, parts_of_slashFree isName.slashFree, led,
    endsInSlash_append isName.notEmpty, endsInSlash_of_isName isName]
  exact String.append_empty

end Path

/-! ## Roots on the way up -/

/-- Something named `package.json` stands in a directory. -/
def HoldsManifest (world : World) (location : Location) : Prop :=
  world.files.holds world.directory (Path.ofLocation (location ++ ["package.json"])) = true

instance (world : World) (location : Location) : Decidable (HoldsManifest world location) :=
  inferInstanceAs (Decidable (_ = true))

/-- The deepest root among a location and all those above it, the top one
included. -/
structure NearestRoot (world : World) (home location : Location) : Prop where
  above : location <+: home
  holds : HoldsManifest world location
  deepest : ∀ other, other <+: home → HoldsManifest world other → other <+: location

/-- No root is on the way up from a location. -/
def Rootless (world : World) (home : Location) : Prop :=
  ∀ location, location <+: home → ¬ HoldsManifest world location

section

variable {world : World} {home location : Location} {last : String}

theorem isRoot_ofLocation (areNames : ∀ name ∈ location, Path.IsName name) :
    world.isRoot (Path.ofLocation location) = true ↔ HoldsManifest world location := by
  rw [World.isRoot, Path.below_ofLocation areNames (by decide), HoldsManifest]

theorem NearestRoot.here (holds : HoldsManifest world home) : NearestRoot world home home :=
  ⟨List.prefix_rfl, holds, fun _ above _ => above⟩

/-- A directory that is no root adds nothing to the search from it. -/
theorem NearestRoot.concat (nearest : NearestRoot world home location)
    (absent : ¬ HoldsManifest world (home ++ [last])) :
    NearestRoot world (home ++ [last]) location := by
  refine ⟨nearest.above.trans (List.prefix_append _ _), nearest.holds, ?_⟩
  intro other above holds
  rcases List.prefix_concat_iff.mp above with rfl | higher
  · exact absurd holds absent
  · exact nearest.deepest other higher holds

theorem Rootless.concat (rootless : Rootless world home)
    (absent : ¬ HoldsManifest world (home ++ [last])) : Rootless world (home ++ [last]) := by
  intro location above
  rcases List.prefix_concat_iff.mp above with rfl | higher
  · exact absent
  · exact rootless location higher

theorem NearestRoot.unique (nearest : NearestRoot world home location) {other : Location}
    (another : NearestRoot world home other) : location = other :=
  (another.deepest location nearest.above nearest.holds).eq_of_length_le
    (nearest.deepest other another.above another.holds).length_le

end

/-! ## The way up -/

/-- A search upward from a directory ends after so many looks, with a root or
without one. -/
inductive Climbs (world : World) : String → Nat → Option String → Prop where
  | arrived {directory : String} : world.isRoot directory = true →
      Climbs world directory 1 (some directory)
  | ended {directory : String} : world.isRoot directory = false →
      Path.parent directory = directory → Climbs world directory 1 none
  | onward {directory : String} {looks : Nat} {outcome : Option String} :
      world.isRoot directory = false → Path.parent directory ≠ directory →
      Climbs world (Path.parent directory) looks outcome →
      Climbs world directory (looks + 1) outcome

namespace Climbs

variable {world : World} {directory : String} {looks : Nat} {outcome : Option String}

theorem nearestRoot?_eq (climbs : Climbs world directory looks outcome) :
    Job.nearestRoot? world directory = outcome := by
  induction climbs with
  | arrived found => exact Job.nearestRoot?_of_isRoot found
  | ended absent top => exact Job.nearestRoot?_of_top absent top
  | onward absent onward _ induction =>
      rw [Job.nearestRoot?_of_onward absent onward]
      exact induction

theorem looks_unique (climbs : Climbs world directory looks outcome) {others : Nat}
    {result : Option String} (again : Climbs world directory others result) : looks = others := by
  induction climbs generalizing others with
  | arrived found =>
      cases again with
      | arrived => rfl
      | ended absent => exact absurd found (Bool.eq_false_iff.mp absent)
      | onward absent => exact absurd found (Bool.eq_false_iff.mp absent)
  | ended absent top =>
      cases again with
      | arrived found => exact absurd found (Bool.eq_false_iff.mp absent)
      | ended => rfl
      | onward _ onward => exact absurd top onward
  | onward absent onward _ induction =>
      cases again with
      | arrived found => exact absurd found (Bool.eq_false_iff.mp absent)
      | ended _ top => exact absurd top onward
      | onward _ _ rest => rw [induction rest]

/-- One look at a directory below the top one: it is a root, or the search goes
on from the directory above it. -/
theorem concat {location : Location} {last : String}
    (areNames : ∀ name ∈ location ++ [last], Path.IsName name)
    (absent : ¬ HoldsManifest world (location ++ [last]))
    (climbs : Climbs world (Path.ofLocation location) looks outcome) :
    Climbs world (Path.ofLocation (location ++ [last])) (looks + 1) outcome := by
  have parent := Path.parent_ofLocation_concat areNames
  refine .onward ?_ ?_ ?_
  · exact Bool.eq_false_iff.mpr fun found => absent ((isRoot_ofLocation areNames).mp found)
  · rw [parent]
    exact Path.ofLocation_concat_ne areNames
  · rw [parent]
    exact climbs

end Climbs

/-- A search looks once at each directory on the way up, as far as the nearest
root, or the top directory if there is none. -/
theorem exists_climbs (world : World) {home : Location}
    (areNames : ∀ name ∈ home, Path.IsName name) :
    (∃ location, NearestRoot world home location ∧
      Climbs world (Path.ofLocation home) (home.length - location.length + 1)
        (some (Path.ofLocation location))) ∨
    (Rootless world home ∧ Climbs world (Path.ofLocation home) (home.length + 1) none) := by
  induction home using List.reverseRecOn with
  | nil =>
      by_cases holds : HoldsManifest world []
      · exact .inl ⟨[], .here holds, .arrived ((isRoot_ofLocation areNames).mpr holds)⟩
      · refine .inr ⟨?_, .ended ?_ Path.parent_top⟩
        · intro location above
          rw [List.prefix_nil.mp above]
          exact holds
        · exact Bool.eq_false_iff.mpr fun found => holds ((isRoot_ofLocation areNames).mp found)
  | append_singleton front last induction =>
      by_cases holds : HoldsManifest world (front ++ [last])
      · refine .inl ⟨front ++ [last], .here holds, ?_⟩
        rw [Nat.sub_self]
        exact .arrived ((isRoot_ofLocation areNames).mpr holds)
      · rcases induction (List.forall_mem_append.mp areNames).1 with
          ⟨location, nearest, climbs⟩ | ⟨rootless, climbs⟩
        · refine .inl ⟨location, nearest.concat holds, ?_⟩
          have shorter := nearest.above.length_le
          have count : (front ++ [last]).length - location.length + 1 =
              front.length - location.length + 1 + 1 := by
            rw [List.length_append, List.length_singleton]
            omega
          rw [count]
          exact climbs.concat areNames holds
        · refine .inr ⟨rootless.concat holds, ?_⟩
          rw [List.length_append, List.length_singleton]
          exact climbs.concat areNames holds

section

variable {world : World} {home : Location} (areNames : ∀ name ∈ home, Path.IsName name)

include areNames

theorem Climbs.looks_le {looks : Nat} {outcome : Option String}
    (climbs : Climbs world (Path.ofLocation home) looks outcome) : looks ≤ home.length + 1 := by
  rcases exists_climbs world areNames with ⟨location, _, again⟩ | ⟨_, again⟩
  · rw [climbs.looks_unique again]
    omega
  · exact Nat.le_of_eq (climbs.looks_unique again)

theorem nearestRoot?_eq_some_iff {root : String} :
    Job.nearestRoot? world (Path.ofLocation home) = some root ↔
      ∃ location, NearestRoot world home location ∧ root = Path.ofLocation location := by
  rcases exists_climbs world areNames with ⟨location, nearest, climbs⟩ | ⟨rootless, climbs⟩
  · rw [climbs.nearestRoot?_eq, Option.some_inj]
    constructor
    · rintro rfl
      exact ⟨location, nearest, rfl⟩
    · rintro ⟨other, another, rfl⟩
      rw [nearest.unique another]
  · rw [climbs.nearestRoot?_eq]
    constructor
    · rintro ⟨⟩
    · rintro ⟨location, nearest, _⟩
      exact absurd nearest.holds (rootless location nearest.above)

theorem nearestRoot?_eq_none_iff :
    Job.nearestRoot? world (Path.ofLocation home) = none ↔ Rootless world home := by
  rcases exists_climbs world areNames with ⟨location, nearest, climbs⟩ | ⟨rootless, climbs⟩
  · rw [climbs.nearestRoot?_eq]
    constructor
    · rintro ⟨⟩
    · intro rootless
      exact absurd nearest.holds (rootless location nearest.above)
  · rw [climbs.nearestRoot?_eq]
    exact ⟨fun _ => rootless, fun _ => rfl⟩

end

/-! ## Finding the root -/

namespace Path

theorem isName_of_mem_resolve {directory : Location}
    (areNames : ∀ name ∈ directory, IsName name) {path name : String}
    (member : name ∈ resolve directory path) : IsName name := by
  rcases isName_of_mem_follow (fun _ => slashFree_of_mem_parts) member with inStart | isName
  · split at inStart
    · cases inStart
    · exact areNames name inStart
  · exact isName

end Path

namespace Job

/-- What a search for a root comes to: the root, or a failure for the path that it
was asked for. -/
def rootResult (start : String) (world : World) :
    Option String → EStateM.Result Failure World String
  | some root => .ok root world
  | none => .error (.rootNotFound start) world

theorem rootResult_eq_ok_iff {start : String} {world after : World} {outcome : Option String}
    {root : String} : rootResult start world outcome = .ok root after ↔
      after = world ∧ outcome = some root := by
  cases outcome with
  | none => simp [rootResult]
  | some found => simp [rootResult, and_comm, eq_comm]

theorem rootResult_eq_error_iff {start : String} {world after : World} {outcome : Option String}
    {failure : Failure} : rootResult start world outcome = .error failure after ↔
      after = world ∧ failure = .rootNotFound start ∧ outcome = none := by
  cases outcome with
  | none => simp [rootResult, and_comm, eq_comm]
  | some found => simp [rootResult]

theorem run_findRoot (start : String) (world : World) :
    findRoot start world = rootResult start world
      (nearestRoot? world (Path.ofLocation (Path.resolve world.directory start))) := by
  rw [findRoot, run_bind_of_ok (run_get world)]
  cases nearestRoot? world (Path.ofLocation (Path.resolve world.directory start)) <;> rfl

/-- The search for a root from any path ends, with at most one look more than the
path has names.  It yields the deepest root at or above the path, and fails exactly
if there is none. -/
theorem findRoot_finds_nearest (start : String) (world : World)
    (areNames : ∀ name ∈ world.directory, Path.IsName name) :
    let home := Path.resolve world.directory start
    (∃ looks outcome, Climbs world (Path.ofLocation home) looks outcome) ∧
    (∀ looks outcome, Climbs world (Path.ofLocation home) looks outcome →
      looks ≤ home.length + 1 ∧ findRoot start world = rootResult start world outcome) ∧
    (∀ root after, findRoot start world = .ok root after ↔
      after = world ∧ ∃ location, NearestRoot world home location ∧
        root = Path.ofLocation location) ∧
    (∀ failure after, findRoot start world = .error failure after ↔
      after = world ∧ failure = .rootNotFound start ∧ Rootless world home) ∧
    (Failure.rootNotFound start).message = "Could not find project root from " ++ start := by
  intro home
  have homeNames : ∀ name ∈ home, Path.IsName name :=
    fun _ => Path.isName_of_mem_resolve areNames
  refine ⟨?_, ?_, ?_, ?_, rfl⟩
  · rcases exists_climbs world homeNames with ⟨location, _, climbs⟩ | ⟨_, climbs⟩
    · exact ⟨_, _, climbs⟩
    · exact ⟨_, _, climbs⟩
  · intro looks outcome climbs
    refine ⟨climbs.looks_le homeNames, ?_⟩
    rw [run_findRoot, climbs.nearestRoot?_eq]
  · intro root after
    rw [run_findRoot, rootResult_eq_ok_iff, nearestRoot?_eq_some_iff homeNames]
  · intro failure after
    rw [run_findRoot, rootResult_eq_error_iff, nearestRoot?_eq_none_iff homeNames]

/-- A job inside an installation that stands in another one. -/
def nestedWorld : World :=
  { World.empty with
    files :=
      ([(["app"], .directory), (["app", "package.json"], .file []),
        (["app", "lib"], .directory), (["app", "lib", "package.json"], .file []),
        (["app", "lib", "src"], .directory)] :
        List (Location × Entry)).foldl (fun files entry => files.add entry.1 entry.2) .empty
    directory := ["app", "lib"] }

/-- The path leads through a directory that does not exist, and two roots are
above it. -/
theorem nested_root_found :
    (∀ name ∈ nestedWorld.directory, Path.IsName name) ∧
    findRoot "src//missing/./deep/.." nestedWorld = .ok "/app/lib" nestedWorld := by
  refine ⟨by decide, ?_⟩
  have general := findRoot_finds_nearest "src//missing/./deep/.." nestedWorld (by decide)
  have checked : ∀ other ∈ (Path.resolve nestedWorld.directory "src//missing/./deep/..").inits,
      HoldsManifest nestedWorld other → other <+: ["app", "lib"] := by decide
  refine (general.2.2.1 _ _).mpr ⟨rfl, ["app", "lib"], ⟨by decide, by decide, ?_⟩, by decide⟩
  exact fun other above => checked other ((List.mem_inits other _).mpr above)

end Job

end Montage
