import Montage.Host.World

/-!
# Computations in steps

A computation that binds one step after another comes to a result exactly if
each step does.  A job is opened in the same way, in the worlds in which its
steps leave one another.
-/

namespace Montage

theorem exists_of_bind_eq_ok {ε α β : Type} {first : Except ε α}
    {next : α → Except ε β} {result : β} (success : first >>= next = .ok result) :
    ∃ value, first = .ok value ∧ next value = .ok result := by
  cases first with
  | error fault => cases success
  | ok value => exact ⟨value, rfl, success⟩

theorem bind_eq_error_iff {ε α β : Type} {first : Except ε α} {next : α → Except ε β}
    {fault : ε} : first >>= next = .error fault ↔
      first = .error fault ∨ ∃ value, first = .ok value ∧ next value = .error fault := by
  cases first with
  | error found =>
      constructor
      · intro same
        cases same
        exact .inl rfl
      · rintro (same | ⟨_, impossible, _⟩)
        · cases same
          rfl
        · cases impossible
  | ok value =>
      constructor
      · intro failed
        exact .inr ⟨value, rfl, failed⟩
      · rintro (impossible | ⟨_, same, failed⟩)
        · cases impossible
        · cases same
          exact failed

theorem mapError_eq_error_iff {ε δ α : Type} {change : ε → δ} {outcome : Except ε α}
    {changed : δ} : outcome.mapError change = .error changed ↔
      ∃ fault, outcome = .error fault ∧ change fault = changed := by
  cases outcome with
  | error found =>
      constructor
      · intro same
        cases same
        exact ⟨found, rfl, rfl⟩
      · rintro ⟨_, same, rfl⟩
        cases same
        rfl
  | ok value =>
      constructor
      · intro impossible
        cases impossible
      · rintro ⟨_, impossible, _⟩
        cases impossible

theorem mapError_eq_ok_iff {ε δ α : Type} {change : ε → δ} {outcome : Except ε α}
    {value : α} : outcome.mapError change = .ok value ↔ outcome = .ok value := by
  cases outcome with
  | error fault => constructor <;> intro impossible <;> cases impossible
  | ok found => constructor <;> intro same <;> cases same <;> rfl

theorem map_eq_error_iff {ε α β : Type} {change : α → β} {outcome : Except ε α} {fault : ε} :
    outcome.map change = .error fault ↔ outcome = .error fault := by
  cases outcome with
  | error found => constructor <;> intro same <;> cases same <;> rfl
  | ok value => constructor <;> intro impossible <;> cases impossible

namespace Job

theorem run_get (world : World) : (get : Job World) world = .ok world world := rfl

theorem run_bind_of_ok {α β : Type} {first : Job α} {next : α → Job β} {value : α}
    {world between : World} (success : first world = .ok value between) :
    (first >>= next) world = next value between := by
  change EStateM.bind first next world = _
  rw [EStateM.bind, success]

theorem run_bind_of_error {α β : Type} {first : Job α} {next : α → Job β} {failure : Failure}
    {world after : World} (failed : first world = .error failure after) :
    (first >>= next) world = .error failure after := by
  change EStateM.bind first next world = _
  rw [EStateM.bind, failed]

/-- A job of two steps that yields something has done both. -/
theorem exists_of_run_bind_eq_ok {α β : Type} {first : Job α} {next : α → Job β} {result : β}
    {world after : World} (success : (first >>= next) world = .ok result after) :
    ∃ value between, first world = .ok value between ∧ next value between = .ok result after := by
  cases ran : first world with
  | error failure between =>
      rw [run_bind_of_error ran] at success
      cases success
  | ok value between =>
      rw [run_bind_of_ok ran] at success
      exact ⟨value, between, rfl, success⟩

/-- A step that goes on as another one can be replaced by it. -/
theorem run_bind_of_eq {α β : Type} {first rest : Job α} {next : α → Job β}
    {world between : World} (continues : first world = rest between) :
    (first >>= next) world = (rest >>= next) between := by
  change EStateM.bind first next world = EStateM.bind rest next between
  rw [EStateM.bind, EStateM.bind, continues]

theorem run_tryCatch_of_ok {α : Type} {job : Job α} {handler : Failure → Job α} {value : α}
    {world after : World} (success : job world = .ok value after) :
    tryCatch job handler world = .ok value after := by
  change EStateM.tryCatch job handler world = _
  delta EStateM.tryCatch
  simp only [success]

/-- What a job has done before it fails is not undone. -/
theorem run_tryCatch_of_error {α : Type} {job : Job α} {handler : Failure → Job α}
    {failure : Failure} {world after : World} (failed : job world = .error failure after) :
    tryCatch job handler world = handler failure after := by
  change EStateM.tryCatch job handler world = _
  delta EStateM.tryCatch
  simp only [failed]
  rfl

end Job

end Montage
