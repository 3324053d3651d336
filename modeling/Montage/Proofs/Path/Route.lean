import Mathlib.Data.List.Basic
import Montage.Path

/-!
# Routes

Wherever it starts, a list of parts leads so many directories up and then down
by names.  What it leads to lies below its start exactly if it does not climb,
or comes down again by the names of the directories that it has left.
-/

namespace Montage.Path

/-! ## The parts of joined paths -/

theorem splitList_ne_nil (characters : List Char) : splitList characters ≠ [] := by
  cases characters with
  | nil => exact List.cons_ne_nil _ _
  | cons character rest =>
      rw [splitList]
      split
      · exact List.cons_ne_nil _ _
      · split <;> exact List.cons_ne_nil _ _

theorem splitList_append_slash (front back : List Char) :
    splitList (front ++ '/' :: back) = splitList front ++ splitList back := by
  induction front with
  | nil => rfl
  | cons character front induction =>
      rw [List.cons_append, splitList, splitList]
      split
      · rw [induction, List.cons_append]
      · rw [induction]
        cases split : splitList front with
        | nil => exact absurd split (splitList_ne_nil front)
        | cons first others => rfl

theorem splitList_of_slashFree {characters : List Char} (slashFree : '/' ∉ characters) :
    splitList characters = [characters] := by
  induction characters with
  | nil => rfl
  | cons character rest induction =>
      obtain ⟨different, restFree⟩ := List.ne_and_not_mem_of_not_mem_cons slashFree
      rw [splitList, if_neg different.symm, induction restFree]

theorem parts_append_slash (front back : String) :
    parts (front ++ "/" ++ back) = parts front ++ parts back := by
  have characters : (front ++ "/" ++ back).toList = front.toList ++ '/' :: back.toList := by
    simp
  rw [parts, characters, splitList_append_slash, List.map_append, parts, parts]

theorem parts_of_slashFree {part : String} (slashFree : '/' ∉ part.toList) :
    parts part = [part] := by
  rw [parts, splitList_of_slashFree slashFree, List.map_singleton, String.ofList_toList]

theorem join_cons_cons (first second : String) (rest : List String) :
    join (first :: second :: rest) = first ++ "/" ++ join (second :: rest) := by
  apply String.toList_inj.mp
  simp [join, String.toList_intercalate]

theorem parts_join {names : List String} (present : names ≠ [])
    (slashFree : ∀ name ∈ names, '/' ∉ name.toList) : parts (join names) = names := by
  induction names with
  | nil => exact absurd rfl present
  | cons first rest induction =>
      obtain ⟨firstFree, restFree⟩ := List.forall_mem_cons.mp slashFree
      cases rest with
      | nil =>
          have alone : join [first] = first := by
            apply String.toList_inj.mp
            simp [join]
          rw [alone, parts_of_slashFree firstFree]
      | cons second rest =>
          rw [join_cons_cons, parts_append_slash, parts_of_slashFree firstFree,
            induction (List.cons_ne_nil _ _) restFree, List.singleton_append]

/-! ## Names -/

/-- A part that leads one directory down, whatever the directory. -/
structure IsName (part : String) : Prop where
  notEmpty : part ≠ ""
  notHere : part ≠ "."
  notAbove : part ≠ ".."
  slashFree : '/' ∉ part.toList

instance (part : String) : Decidable (IsName part) :=
  decidable_of_iff (part ≠ "" ∧ part ≠ "." ∧ part ≠ ".." ∧ '/' ∉ part.toList)
    ⟨fun ⟨notEmpty, notHere, notAbove, slashFree⟩ => ⟨notEmpty, notHere, notAbove, slashFree⟩,
      fun isName => ⟨isName.notEmpty, isName.notHere, isName.notAbove, isName.slashFree⟩⟩

theorem IsName.step_eq {part : String} (isName : IsName part) (location : Location) :
    step location part = location ++ [part] := by
  rw [step, if_neg (not_or.mpr ⟨isName.notEmpty, isName.notHere⟩), if_neg isName.notAbove]

theorem follow_names {names : List String} (areNames : ∀ name ∈ names, IsName name)
    (start : Location) : follow start names = start ++ names := by
  induction names generalizing start with
  | nil => exact (List.append_nil start).symm
  | cons name names induction =>
      obtain ⟨isName, others⟩ := List.forall_mem_cons.mp areNames
      change follow (step start name) names = _
      rw [isName.step_eq, induction others, List.append_assoc, List.singleton_append]

theorem isName_of_mem_step {location : Location} {part name : String}
    (slashFree : '/' ∉ part.toList) (member : name ∈ step location part) :
    name ∈ location ∨ IsName name := by
  unfold step at member
  split at member
  · exact .inl member
  · next notBlank =>
    obtain ⟨notEmpty, notHere⟩ := not_or.mp notBlank
    split at member
    · exact .inl (List.dropLast_subset _ member)
    · next notAbove =>
      rcases List.mem_append.mp member with inLocation | last
      · exact .inl inLocation
      · rw [List.mem_singleton.mp last]
        exact .inr ⟨notEmpty, notHere, notAbove, slashFree⟩

theorem isName_of_mem_follow {start : Location} {parts : List String} {name : String}
    (slashFree : ∀ part ∈ parts, '/' ∉ part.toList) (member : name ∈ follow start parts) :
    name ∈ start ∨ IsName name := by
  induction parts generalizing start with
  | nil => exact .inl member
  | cons part parts induction =>
      obtain ⟨partFree, others⟩ := List.forall_mem_cons.mp slashFree
      rcases induction others member with inStep | isName
      · exact isName_of_mem_step partFree inStep
      · exact .inr isName

theorem slashFree_of_mem_splitList {characters part : List Char}
    (listed : part ∈ splitList characters) : '/' ∉ part := by
  induction characters generalizing part with
  | nil =>
      rw [splitList, List.mem_singleton] at listed
      subst listed
      exact List.not_mem_nil
  | cons character rest induction =>
      rw [splitList] at listed
      split at listed
      · rcases List.mem_cons.mp listed with rfl | later
        · exact List.not_mem_nil
        · exact induction later
      · next different =>
        split at listed
        · rw [List.mem_singleton] at listed
          subst listed
          exact fun inPart => different (List.mem_singleton.mp inPart).symm
        · next first others found =>
          rw [found] at induction
          rcases List.mem_cons.mp listed with rfl | later
          · exact List.not_mem_cons_of_ne_of_not_mem (Ne.symm different)
              (induction List.mem_cons_self)
          · exact induction (List.mem_cons_of_mem _ later)

theorem slashFree_of_mem_parts {path part : String} (listed : part ∈ parts path) :
    '/' ∉ part.toList := by
  obtain ⟨characters, split, rfl⟩ := List.mem_map.mp listed
  rw [String.toList_ofList]
  exact slashFree_of_mem_splitList split

/-! ## The path of a location -/

theorem isAbsolute_ofLocation_append (location : Location) (rest : String) :
    isAbsolute (ofLocation location ++ rest) = true := by
  simp [isAbsolute, ofLocation]

theorem parts_ofLocation (location : Location) (areNames : ∀ name ∈ location, IsName name) :
    follow [] (parts (ofLocation location)) = location := by
  have opened : ofLocation location = "" ++ "/" ++ join location := by simp [ofLocation]
  rw [opened, parts_append_slash, follow_append]
  cases location with
  | nil => rfl
  | cons name rest =>
      rw [parts_join (List.cons_ne_nil _ _) fun name member => (areNames name member).slashFree]
      exact follow_names areNames []

/-- A location is where its path leads, from any directory. -/
theorem resolve_ofLocation {location : Location} (areNames : ∀ name ∈ location, IsName name)
    (directory : Location) : resolve directory (ofLocation location) = location := by
  have absolute := isAbsolute_ofLocation_append location ""
  rw [String.append_empty] at absolute
  rw [resolve, absolute, if_pos rfl, parts_ofLocation location areNames]

theorem resolve_ofLocation_slash {location : Location}
    (areNames : ∀ name ∈ location, IsName name) (directory : Location) :
    resolve directory (ofLocation location ++ "/") = location := by
  have opened : ofLocation location ++ "/" = ofLocation location ++ "/" ++ "" := by simp
  rw [resolve, isAbsolute_ofLocation_append, if_pos rfl, opened, parts_append_slash,
    follow_append, parts_ofLocation location areNames]
  rfl

/-! ## Segments below a directory -/

theorem follow_parts_join (start : Location) (segments : List String) :
    follow start (parts (join segments)) = follow start (segments.flatMap parts) := by
  induction segments generalizing start with
  | nil => rfl
  | cons first rest induction =>
      cases rest with
      | nil => simp [join]
      | cons second rest =>
          rw [join_cons_cons, parts_append_slash, follow_append, List.flatMap_cons,
            follow_append, induction]

theorem endsInSlash_append {back : String} (present : back ≠ "") (front : String) :
    endsInSlash (front ++ back) = endsInSlash back := by
  have characters : back.toList ≠ [] := by simpa using present
  rw [endsInSlash, endsInSlash, String.toList_append,
    List.getLast?_append_of_ne_nil _ characters]

/-- Segments lead where their parts do, one segment after another. -/
theorem follow_parts_join_filter (start : Location) (segments : List String) :
    follow start (parts (join (segments.filter (· ≠ "")))) =
      follow start (segments.flatMap parts) := by
  rw [follow_parts_join]
  induction segments generalizing start with
  | nil => rfl
  | cons first rest induction =>
      rw [List.flatMap_cons, follow_append, ← induction]
      by_cases blank : first = ""
      · subst blank
        rfl
      · rw [List.filter_cons_of_pos (by simpa using blank), List.flatMap_cons, follow_append]

theorem resolve_below {directory : Location} (areNames : ∀ name ∈ directory, IsName name)
    (segments : List String) (elsewhere : Location) :
    resolve elsewhere (below directory segments) = follow directory (segments.flatMap parts) := by
  have partsFree : ∀ part ∈ segments.flatMap parts, '/' ∉ part.toList := by
    intro part member
    obtain ⟨segment, _, listed⟩ := List.mem_flatMap.mp member
    exact slashFree_of_mem_parts listed
  have reached : ∀ name ∈ follow directory (segments.flatMap parts), IsName name := by
    intro name member
    rcases isName_of_mem_follow partsFree member with inDirectory | isName
    · exact areNames name inDirectory
    · exact isName
  rw [below, follow_parts_join_filter]
  split
  · exact resolve_ofLocation_slash reached elsewhere
  · rw [String.append_empty]
    exact resolve_ofLocation reached elsewhere

/-! ## Routes -/

/-- Where parts lead, whatever they start from: so many directories up, and then
down by names. -/
structure Route where
  ascent : Nat
  descent : List String
deriving DecidableEq, Repr

namespace Route

/-- A route that goes on by one part.  Going up undoes the last name of the
descent, if there is one. -/
def step (route : Route) (part : String) : Route :=
  if part = "" ∨ part = "." then route
  else if part = ".." then
    if route.descent = [] then ⟨route.ascent + 1, []⟩
    else ⟨route.ascent, route.descent.dropLast⟩
  else ⟨route.ascent, route.descent ++ [part]⟩

def ofParts (parts : List String) : Route := parts.foldl step ⟨0, []⟩

/-- Where a route leads.  Nothing is above the top directory. -/
def goal (route : Route) (start : Location) : Location :=
  start.take (start.length - route.ascent) ++ route.descent

theorem step_goal (route : Route) (start : Location) (part : String) :
    Path.step (route.goal start) part = (route.step part).goal start := by
  obtain ⟨ascent, descent⟩ := route
  unfold Path.step step
  split
  · rfl
  split
  · by_cases onTop : descent = []
    · subst onTop
      simp only [goal, List.append_nil, if_true, List.dropLast_eq_take, List.take_take,
        List.length_take]
      congr 1
      omega
    · rw [if_neg onTop, goal, goal, List.dropLast_append_of_ne_nil onTop]
  · rw [goal, goal, List.append_assoc]

theorem follow_goal (route : Route) (start : Location) (parts : List String) :
    follow (route.goal start) parts = (parts.foldl step route).goal start := by
  induction parts generalizing route with
  | nil => rfl
  | cons part parts induction =>
      change follow (Path.step (route.goal start) part) parts = _
      rw [step_goal, induction, List.foldl_cons]

theorem follow_eq_goal (start : Location) (parts : List String) :
    follow start parts = (ofParts parts).goal start := by
  have standing : goal ⟨0, []⟩ start = start := by simp [goal]
  rw [ofParts, ← follow_goal, standing]

/-- A route stays below its start if it goes down from there, or climbs and
comes down again by the names of the directories that it has left, and further. -/
def StaysBelow (route : Route) (start : Location) : Prop :=
  ∃ further, further ≠ [] ∧
    route.descent = start.drop (start.length - route.ascent) ++ further

theorem staysBelow_of_ascent_eq_zero {route : Route} (level : route.ascent = 0)
    (descends : route.descent ≠ []) (start : Location) : route.StaysBelow start :=
  ⟨route.descent, descends, by simp [level]⟩

end Route

/-- A location lies strictly below a directory. -/
def Below (directory location : Location) : Prop :=
  ∃ further, further ≠ [] ∧ location = directory ++ further

theorem Route.below_goal_iff {route : Route} {start : Location} :
    Below start (route.goal start) ↔ route.StaysBelow start := by
  have cut (further : List String) :
      route.goal start = start ++ further ↔
        route.descent = start.drop (start.length - route.ascent) ++ further := by
    have whole : start ++ further =
        start.take (start.length - route.ascent) ++
          (start.drop (start.length - route.ascent) ++ further) := by
      rw [← List.append_assoc, List.take_append_drop]
    rw [goal, whole, List.append_cancel_left_eq]
  exact exists_congr fun further => and_congr_right fun _ => cut further

/-! ## The last name of a path -/

theorem exists_splitList_append {back : List Char} (slashFree : '/' ∉ back)
    (front : List Char) :
    ∃ before last, splitList (front ++ back) = before ++ [last ++ back] := by
  induction front with
  | nil => exact ⟨[], [], splitList_of_slashFree slashFree⟩
  | cons character front induction =>
      obtain ⟨before, last, split⟩ := induction
      rw [List.cons_append, splitList, split]
      split
      · exact ⟨[] :: before, last, rfl⟩
      · cases before with
        | nil => exact ⟨[], character :: last, rfl⟩
        | cons first before => exact ⟨(character :: first) :: before, last, rfl⟩

/-- What is added to a path without a slash is added to its last name. -/
theorem exists_lastName_append (path : String) {suffix : String}
    (slashFree : '/' ∉ suffix.toList) (present : suffix ≠ "") :
    ∃ last, lastName (path ++ suffix) = last ++ suffix := by
  obtain ⟨before, last, split⟩ := exists_splitList_append slashFree path.toList
  have added : String.ofList (last ++ suffix.toList) = String.ofList last ++ suffix := by
    apply String.toList_inj.mp
    simp
  have notEmpty : String.ofList last ++ suffix ≠ "" := by
    rw [Ne, String.append_eq_empty_iff]
    exact fun both => present both.2
  have kept : [String.ofList last ++ suffix].filter (· ≠ "") = [String.ofList last ++ suffix] :=
    List.filter_eq_self.mpr fun part member => by
      rw [List.mem_singleton.mp member]
      exact decide_eq_true notEmpty
  refine ⟨String.ofList last, ?_⟩
  rw [lastName, parts, String.toList_append, split, List.map_append, List.filter_append,
    List.map_singleton, added, kept, List.getLastD_concat]

/-- Nothing but empty parts comes after the last name of a path. -/
theorem exists_parts_eq_of_lastName_ne {path : String} (present : lastName path ≠ "") :
    ∃ front blanks, parts path = front ++ lastName path :: blanks ∧
      ∀ part ∈ blanks, part = "" := by
  rcases List.eq_nil_or_concat' ((parts path).filter (· ≠ "")) with none | ⟨before, last, found⟩
  · rw [lastName, none] at present
    exact absurd rfl present
  · obtain ⟨front, back, whole, _, lastPart⟩ := List.filter_eq_append_iff.mp found
    obtain ⟨skipped, blanks, backWhole, _, _, rest⟩ := List.filter_eq_cons_iff.mp lastPart
    refine ⟨front ++ skipped, blanks, ?_, by simpa [List.filter_eq_nil_iff] using rest⟩
    rw [lastName, found, List.getLastD_concat, whole, backWhole, List.append_assoc]

theorem slashFree_lastName (path : String) : '/' ∉ (lastName path).toList := by
  by_cases present : lastName path = ""
  · rw [present]
    exact List.not_mem_nil
  · obtain ⟨front, blanks, whole, _⟩ := exists_parts_eq_of_lastName_ne present
    have listed : lastName path ∈ parts path := by
      rw [whole]
      exact List.mem_append_right _ List.mem_cons_self
    exact slashFree_of_mem_parts listed

theorem Route.foldl_step_blanks {blanks : List String} (blank : ∀ part ∈ blanks, part = "")
    (route : Route) : blanks.foldl step route = route := by
  induction blanks with
  | nil => rfl
  | cons part blanks induction =>
      obtain ⟨partBlank, others⟩ := List.forall_mem_cons.mp blank
      rw [List.foldl_cons, partBlank, step, if_pos (.inl rfl), induction others]

/-- A path that ends in a name leads down to it. -/
theorem Route.descent_ne_nil {path : String} (isName : IsName (lastName path)) :
    (ofParts (parts path)).descent ≠ [] := by
  obtain ⟨front, blanks, whole, blank⟩ := exists_parts_eq_of_lastName_ne isName.notEmpty
  rw [ofParts, whole, List.foldl_append, List.foldl_cons, foldl_step_blanks blank, step,
    if_neg (not_or.mpr ⟨isName.notEmpty, isName.notHere⟩), if_neg isName.notAbove]
  exact List.append_ne_nil_of_right_ne_nil _ (List.cons_ne_nil _ _)

/-- What a path ends in belongs to a name. -/
theorem isName_lastName_of_extension_ne {path : String} (ends : extension path ≠ "") :
    IsName (lastName path) := by
  have unlike (other : String) (bare : suffixList other.toList = []) :
      lastName path ≠ other := by
    intro same
    rw [extension, same, bare] at ends
    exact ends rfl
  exact ⟨unlike "" rfl, unlike "." rfl, unlike ".." rfl, slashFree_lastName path⟩

end Montage.Path
