namespace Machine

variable {ι σ τ ε : Type}

/-- Feed inputs one by one to a machine whose step may stop the run for good. -/
def exec (step : ι → σ → Except ε σ) : List ι → σ → Except ε σ
  | [], state => .ok state
  | input :: rest, state =>
    match step input state with
    | .ok next => exec step rest next
    | .error stopped => .error stopped

@[simp]
theorem exec_nil (step : ι → σ → Except ε σ) (state : σ) : exec step [] state = .ok state := rfl

theorem exec_cons_ok (step : ι → σ → Except ε σ) (input : ι) (rest : List ι) (state final : σ) :
    exec step (input :: rest) state = .ok final ↔
      ∃ next, step input state = .ok next ∧ exec step rest next = .ok final := by
  rw [exec]
  cases taken : step input state with
  | ok next => simp
  | error stopped => simp

theorem exec_append_ok (step : ι → σ → Except ε σ) (first second : List ι) (state final : σ) :
    exec step (first ++ second) state = .ok final ↔
      ∃ middle, exec step first state = .ok middle ∧ exec step second middle = .ok final := by
  induction first generalizing state with
  | nil => simp
  | cons input rest ih =>
    rw [List.cons_append, exec_cons_ok]
    constructor
    · rintro ⟨next, taken, run⟩
      obtain ⟨middle, left, right⟩ := (ih next).mp run
      exact ⟨middle, (exec_cons_ok step input rest state middle).mpr ⟨next, taken, left⟩, right⟩
    · rintro ⟨middle, left, right⟩
      obtain ⟨next, taken, run⟩ := (exec_cons_ok step input rest state middle).mp left
      exact ⟨next, taken, (ih next).mpr ⟨middle, run, right⟩⟩

theorem exec_append (step : ι → σ → Except ε σ) (first second : List ι) {state middle : σ}
    (run : exec step first state = .ok middle) : exec step (first ++ second) state = exec step second middle := by
  induction first generalizing state with
  | nil =>
    cases run
    rfl
  | cons input rest ih =>
    obtain ⟨next, taken, tail⟩ := (exec_cons_ok step input rest state middle).mp run
    rw [List.cons_append, exec, taken]
    exact ih tail

theorem exec_singleton (step : ι → σ → Except ε σ) (input : ι) (state : σ) :
    exec step [input] state = step input state := by
  rw [exec]
  cases step input state <;> rfl

/-- A map that commutes with every step commutes with every run. -/
theorem exec_map {υ : Type} {step : ι → σ → Except ε σ} {step' : ι → υ → Except ε υ} (h : σ → υ)
    (commutes : ∀ input state, step' input (h state) = (step input state).map h) (inputs : List ι) (state : σ) :
    exec step' inputs (h state) = (exec step inputs state).map h := by
  induction inputs generalizing state with
  | nil => rfl
  | cons input rest ih =>
    rw [exec, exec, commutes]
    cases step input state with
    | ok next => exact ih next
    | error stopped => rfl

/-- What every step keeps, every run keeps. -/
theorem exec_invariant {step : ι → σ → Except ε σ} {invariant : σ → Prop}
    (kept : ∀ input state next, invariant state → step input state = .ok next → invariant next)
    {inputs : List ι} {state final : σ} (initial : invariant state)
    (run : exec step inputs state = .ok final) : invariant final := by
  induction inputs generalizing state with
  | nil => cases run; exact initial
  | cons input rest ih =>
    obtain ⟨next, taken, tail⟩ := (exec_cons_ok step input rest state final).mp run
    exact ih (kept input state next initial taken) tail

/-- A run stops only at a step taken from a state where the invariant holds. -/
theorem exec_error {step : ι → σ → Except ε σ} {invariant : σ → Prop}
    (kept : ∀ input state next, invariant state → step input state = .ok next → invariant next)
    {inputs : List ι} {state : σ} {stopped : ε} (initial : invariant state)
    (run : exec step inputs state = .error stopped) :
    ∃ input last, invariant last ∧ step input last = .error stopped := by
  induction inputs generalizing state with
  | nil => cases run
  | cons input rest ih =>
    rw [exec] at run
    cases taken : step input state with
    | ok next =>
      rw [taken] at run
      exact ih (kept input state next initial taken) run
    | error other =>
      rw [taken] at run
      cases run
      exact ⟨input, state, initial, taken⟩

/-- The states that a run goes through, its first and its last included -/
def Visits (step : ι → σ → Except ε σ) (inputs : List ι) (state middle : σ) : Prop :=
  ∃ first rest, inputs = first ++ rest ∧ exec step first state = .ok middle

/-- The inputs that a run takes, each with the state it is taken in -/
def Takes (step : ι → σ → Except ε σ) (inputs : List ι) (state : σ) (input : ι) (middle : σ) : Prop :=
  ∃ first rest, inputs = first ++ input :: rest ∧ exec step first state = .ok middle

theorem Takes.visits {step : ι → σ → Except ε σ} {inputs : List ι} {state middle next : σ} {input : ι}
    (takes : Takes step inputs state input middle) (taken : step input middle = .ok next) :
    Visits step inputs state next := by
  obtain ⟨first, rest, split, run⟩ := takes
  refine ⟨first ++ [input], rest, by simp [split], ?_⟩
  rw [exec_append_ok]
  exact ⟨middle, run, (exec_cons_ok step input [] middle next).mpr ⟨next, taken, rfl⟩⟩

theorem Takes.taken {step : ι → σ → Except ε σ} {inputs : List ι} {state middle final : σ} {input : ι}
    (takes : Takes step inputs state input middle) (run : exec step inputs state = .ok final) :
    ∃ next, step input middle = .ok next := by
  obtain ⟨first, rest, split, before⟩ := takes
  rw [split, exec_append_ok] at run
  obtain ⟨same, before', after⟩ := run
  rw [before] at before'
  cases before'
  obtain ⟨next, taken, -⟩ := (exec_cons_ok step input rest middle final).mp after
  exact ⟨next, taken⟩

theorem Takes.visits_before {step : ι → σ → Except ε σ} {inputs : List ι} {state middle : σ} {input : ι}
    (takes : Takes step inputs state input middle) : Visits step inputs state middle := by
  obtain ⟨first, rest, split, run⟩ := takes
  exact ⟨first, input :: rest, split, run⟩

/-- What every step that a run takes keeps holds in every state that it goes through. -/
theorem visits_invariant {step : ι → σ → Except ε σ} {invariant : σ → Prop} {inputs : List ι} {state middle : σ}
    (kept : ∀ input before after, Takes step inputs state input before → invariant before →
      step input before = .ok after → invariant after)
    (initial : invariant state) (visits : Visits step inputs state middle) : invariant middle := by
  obtain ⟨first, rest, split, run⟩ := visits
  subst split
  induction first generalizing state with
  | nil =>
    cases run
    exact initial
  | cons input first ih =>
    obtain ⟨next, taken, tail⟩ := (exec_cons_ok step input first state middle).mp run
    refine ih (kept input state next ⟨[], first ++ rest, rfl, rfl⟩ initial taken) tail ?_
    rintro later before after ⟨taken', remaining, split, run'⟩
    refine kept later before after ⟨input :: taken', remaining, by simp [split], ?_⟩
    exact (exec_cons_ok step input taken' state before).mpr ⟨next, taken, run'⟩

/-- A check of every state that a run goes through, as a computation -/
def holdsAlong (step : ι → σ → Except ε σ) (check : σ → Bool) : List ι → σ → Bool
  | [], state => check state
  | input :: rest, state =>
    check state && match step input state with
      | .ok next => holdsAlong step check rest next
      | .error _ => true

theorem holdsAlong_visits {step : ι → σ → Except ε σ} {check : σ → Bool} {inputs : List ι} {state middle : σ}
    (holds : holdsAlong step check inputs state = true) (visits : Visits step inputs state middle) :
    check middle = true := by
  obtain ⟨first, rest, split, run⟩ := visits
  subst split
  induction first generalizing state with
  | nil =>
    cases run
    cases rest with
    | nil => exact holds
    | cons input rest => exact (Bool.and_eq_true_iff.mp holds).1
  | cons input first ih =>
    obtain ⟨next, taken, tail⟩ := (exec_cons_ok step input first state middle).mp run
    have later := (Bool.and_eq_true_iff.mp holds).2
    rw [taken] at later
    exact ih tail later

/-- A run that succeeds in a state with the given properties, as a computation -/
def succeedsWith (check : σ → Bool) : Except ε σ → Bool
  | .ok state => check state
  | .error _ => false

theorem exists_of_succeedsWith (check : σ → Bool) (result : Except ε σ) (succeeds : succeedsWith check result = true) :
    ∃ state, result = .ok state ∧ check state = true := by
  cases result with
  | ok state => exact ⟨state, rfl, succeeds⟩
  | error stopped => cases succeeds

end Machine
