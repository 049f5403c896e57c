/-!
What a step with a state and failures promises. Every promise has two halves, one for the value and
the state that a step ends with, and one for its failure and the state that the failure leaves.
-/

namespace EndpointAtlas

variable {ε σ α β : Type}

/-- From the state, the step ends as `good` says, or fails as `bad` says. -/
def Yields (step : EStateM ε σ α) (state : σ) (good : α → σ → Prop) (bad : ε → σ → Prop) : Prop :=
  match step state with
  | .ok value after => good value after
  | .error failure after => bad failure after

namespace Yields

variable {state : σ} {good : α → σ → Prop} {bad : ε → σ → Prop}

theorem of_ok {step : EStateM ε σ α} {value : α} {after : σ}
    (yields : Yields step state good bad) (ran : step state = .ok value after) :
    good value after := by
  simpa only [Yields, ran] using yields

theorem of_error {step : EStateM ε σ α} {failure : ε} {after : σ}
    (yields : Yields step state good bad) (ran : step state = .error failure after) :
    bad failure after := by
  simpa only [Yields, ran] using yields

theorem run (step : EStateM ε σ α) (state : σ) :
    Yields step state (fun value after => step state = .ok value after)
      fun _ _ => True := by
  unfold Yields
  split
  · assumption
  · trivial

theorem exists_ok {step : EStateM ε σ α} (yields : Yields step state good fun _ _ => False) :
    ∃ value after, step state = .ok value after ∧ good value after := by
  unfold Yields at yields
  split at yields
  · rename_i value after ran
    exact ⟨value, after, ran, yields⟩
  · exact yields.elim

protected theorem mono {step : EStateM ε σ α} {better : α → σ → Prop} {worse : ε → σ → Prop}
    (yields : Yields step state good bad)
    (onValue : ∀ value after, good value after → better value after)
    (onFailure : ∀ failure after, bad failure after → worse failure after) :
    Yields step state better worse := by
  unfold Yields at yields ⊢
  split
  · rename_i value after ran
    rw [ran] at yields
    exact onValue value after yields
  · rename_i failure after ran
    rw [ran] at yields
    exact onFailure failure after yields

protected theorem pure {value : α} (holds : good value state) :
    Yields (pure value) state good bad := holds

protected theorem throw {failure : ε} (holds : bad failure state) :
    Yields (throw failure) state good bad := holds

protected theorem modify {good : PUnit → σ → Prop} {change : σ → σ}
    (holds : good ⟨⟩ (change state)) :
    Yields (modify change : EStateM ε σ PUnit) state good bad := holds

theorem get_bind_apply {next : σ → EStateM ε σ α} :
    ((get : EStateM ε σ σ) >>= next) state = next state state := rfl

theorem bind_get {next : σ → EStateM ε σ α} (continued : Yields (next state) state good bad) :
    Yields ((get : EStateM ε σ σ) >>= next) state good bad := continued

theorem bind_modify {change : σ → σ} {next : PUnit → EStateM ε σ α}
    (continued : Yields (next ⟨⟩) (change state) good bad) :
    Yields ((modify change : EStateM ε σ PUnit) >>= next) state good bad := continued

theorem bind_pure {value : β} {next : β → EStateM ε σ α}
    (continued : Yields (next value) state good bad) :
    Yields ((pure value : EStateM ε σ β) >>= next) state good bad := continued

theorem bind_of_ok {step : EStateM ε σ β} {next : β → EStateM ε σ α} {value : β} {after : σ}
    (ran : step state = .ok value after) (continued : Yields (next value) after good bad) :
    Yields (step >>= next) state good bad := by
  show Yields (EStateM.bind step next) state good bad
  unfold Yields EStateM.bind
  rw [ran]
  exact continued

protected theorem bind {step : EStateM ε σ α} {next : α → EStateM ε σ β} {last : β → σ → Prop}
    (first : Yields step state good bad)
    (second : ∀ value after, good value after → Yields (next value) after last bad) :
    Yields (step >>= next) state last bad := by
  unfold Yields at first
  show Yields (EStateM.bind step next) state last bad
  unfold Yields EStateM.bind
  split at first
  · rename_i value after ran
    rw [ran]
    exact second value after first
  · rename_i failure after ran
    rw [ran]
    exact first

protected theorem map {step : EStateM ε σ α} {change : α → β} {last : β → σ → Prop}
    (first : Yields step state good bad)
    (changed : ∀ value after, good value after → last (change value) after) :
    Yields (change <$> step) state last bad := by
  rw [← bind_pure_comp]
  exact Yields.bind first fun value after holds => Yields.pure (changed value after holds)

end Yields

theorem exists_ok_of_run' {step : EStateM ε σ α} {state : σ} {view : α → β} {seen : β}
    (shown : (step.run' state).map view = some seen) :
    ∃ value after, step state = .ok value after ∧ view value = seen := by
  unfold EStateM.run' EStateM.run at shown
  cases ran : step state with
  | error failure after =>
      rw [ran] at shown
      cases shown
  | ok value after =>
      rw [ran] at shown
      exact ⟨value, after, rfl, Option.some.inj shown⟩

theorem exists_ok_of_map {step : EStateM ε σ α} {change : α → β} {state after : σ} {value : β}
    (ran : (change <$> step) state = .ok value after) :
    ∃ inner, step state = .ok inner after ∧ change inner = value := by
  rw [← bind_pure_comp] at ran
  change EStateM.bind step _ state = _ at ran
  unfold EStateM.bind at ran
  split at ran
  · rename_i inner between first
    cases ran
    exact ⟨inner, first, rfl⟩
  · cases ran

theorem exists_ok_of_to_option {result : Except ε α} {view : α → β} {seen : β}
    (shown : result.toOption.map view = some seen) :
    ∃ value, result = .ok value ∧ view value = seen := by
  cases result with
  | error failure => cases shown
  | ok value => exact ⟨value, rfl, Option.some.inj shown⟩

/-- How a step ends: with the failure, if it fails, and the state that it leaves. -/
def courseOf : EStateM.Result ε σ α → Option ε × σ
  | .ok _ after => (none, after)
  | .error failure after => (some failure, after)

/-- Whether two steps take the same course from every state; only their values may differ. -/
def SameCourse (step : EStateM ε σ α) (other : EStateM ε σ β) : Prop :=
  ∀ state, courseOf (step state) = courseOf (other state)

namespace SameCourse

variable {γ δ : Type}

protected theorem refl (step : EStateM ε σ α) : SameCourse step step := fun _ => rfl

protected theorem pure (value : α) (other : β) :
    SameCourse (pure value : EStateM ε σ α) (pure other) := fun _ => rfl

protected theorem symm {step : EStateM ε σ α} {other : EStateM ε σ β}
    (same : SameCourse step other) : SameCourse other step := fun state => (same state).symm

protected theorem trans {first : EStateM ε σ α} {second : EStateM ε σ β} {third : EStateM ε σ γ}
    (same : SameCourse first second) (further : SameCourse second third) :
    SameCourse first third := fun state => (same state).trans (further state)

protected theorem bind {step : EStateM ε σ α} {other : EStateM ε σ β} {next : α → EStateM ε σ γ}
    {nextOther : β → EStateM ε σ δ} (first : SameCourse step other)
    (second : ∀ value another, SameCourse (next value) (nextOther another)) :
    SameCourse (step >>= next) (other >>= nextOther) := by
  intro state
  have same := first state
  change courseOf (EStateM.bind step next state) = courseOf (EStateM.bind other nextOther state)
  unfold EStateM.bind
  cases ran : step state with
  | ok value after =>
      cases ranOther : other state with
      | ok another last =>
          rw [ran, ranOther] at same
          obtain rfl : after = last := (Prod.mk.inj same).2
          exact second value another after
      | error failure last =>
          rw [ran, ranOther] at same
          cases same
  | error failure after =>
      cases ranOther : other state with
      | ok another last =>
          rw [ran, ranOther] at same
          cases same
      | error another last =>
          rw [ran, ranOther] at same
          exact same

protected theorem map {step : EStateM ε σ α} {other : EStateM ε σ β} {change : α → γ}
    {changeOther : β → δ} (same : SameCourse step other) :
    SameCourse (change <$> step) (changeOther <$> other) := by
  rw [← bind_pure_comp, ← bind_pure_comp]
  exact SameCourse.bind same fun _ _ => SameCourse.pure _ _

end SameCourse

end EndpointAtlas
