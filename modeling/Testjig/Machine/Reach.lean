import Mathlib.Logic.Relation

namespace Machine

variable {σ τ : Type}

/-- The states that a machine comes to by itself, until its step ends the run with a result -/
def Reaches (step : σ → Except τ σ) : σ → σ → Prop := Relation.ReflTransGen fun state next => step state = .ok next

theorem Reaches.refl (step : σ → Except τ σ) (state : σ) : Reaches step state state := Relation.ReflTransGen.refl

theorem Reaches.head {step : σ → Except τ σ} {state next last : σ} (taken : step state = .ok next)
    (rest : Reaches step next last) : Reaches step state last :=
  Relation.ReflTransGen.head taken rest

theorem Reaches.trans {step : σ → Except τ σ} {state middle last : σ} (first : Reaches step state middle)
    (second : Reaches step middle last) : Reaches step state last :=
  Relation.ReflTransGen.trans first second

theorem reaches_ok {step : σ → Except τ σ} {state next : σ} (taken : step state = .ok next) (last : σ) :
    Reaches step state last ↔ last = state ∨ Reaches step next last := by
  constructor
  · intro reaches
    rcases Relation.ReflTransGen.cases_head reaches with same | ⟨other, first, rest⟩
    · exact .inl same.symm
    · rw [taken, Except.ok.injEq] at first
      exact .inr (first ▸ rest)
  · rintro (rfl | rest)
    · exact .refl step last
    · exact .head taken rest

theorem reaches_error {step : σ → Except τ σ} {state : σ} {result : τ} (ended : step state = .error result) (last : σ) :
    Reaches step state last ↔ last = state := by
  constructor
  · intro reaches
    rcases Relation.ReflTransGen.cases_head reaches with same | ⟨other, first, -⟩
    · exact same.symm
    · rw [ended] at first
      cases first
  · rintro rfl
    exact .refl step last

theorem Reaches.total {step : σ → Except τ σ} {state left right : σ} (first : Reaches step state left)
    (second : Reaches step state right) : Reaches step left right ∨ Reaches step right left := by
  refine Relation.ReflTransGen.total_of_right_unique ?_ first second
  intro before one other taken same
  rw [taken, Except.ok.injEq] at same
  exact same

theorem Reaches.keeps {step : σ → Except τ σ} {invariant : σ → Prop}
    (kept : ∀ state next, step state = .ok next → invariant state → invariant next) {state last : σ}
    (reaches : Reaches step state last) (initial : invariant state) : invariant last := by
  induction reaches with
  | refl => exact initial
  | tail _ taken ih => exact kept _ _ taken ih

/-- A machine whose pending states count down is done at last. -/
theorem reaches_done {step : σ → Except τ σ} {done : σ → Prop} (pending : σ → Prop) (measure : σ → Nat)
    (each : ∀ state, pending state →
      ∃ next, step state = .ok next ∧ (done next ∨ (pending next ∧ measure next < measure state)))
    {state : σ} (start : pending state) : ∃ last, Reaches step state last ∧ done last := by
  induction bound : measure state using Nat.strongRecOn generalizing state with
  | ind size ih =>
    obtain ⟨next, taken, ended | ⟨more, less⟩⟩ := each state start
    · exact ⟨next, .head taken (.refl step next), ended⟩
    · obtain ⟨last, reaches, ended⟩ := ih (measure next) (by omega) more rfl
      exact ⟨last, .head taken reaches, ended⟩

/-- Every state of the run is good, and the run ends with the given result. -/
def Runs (step : σ → Except τ σ) (good : σ → Prop) (result : τ) (state : σ) : Prop :=
  (∀ last, Reaches step state last → good last) ∧ ∃ last, Reaches step state last ∧ step last = .error result

theorem runs_ok {step : σ → Except τ σ} {good : σ → Prop} {result : τ} {state next : σ} (taken : step state = .ok next)
    (here : good state) : Runs step good result state ↔ Runs step good result next := by
  constructor
  · rintro ⟨all, last, reaches, ended⟩
    refine ⟨fun other later => all other (.head taken later), last, ?_, ended⟩
    rcases (reaches_ok taken last).mp reaches with rfl | later
    · rw [taken] at ended
      cases ended
    · exact later
  · rintro ⟨all, last, reaches, ended⟩
    refine ⟨?_, last, .head taken reaches, ended⟩
    intro other reached
    rcases (reaches_ok taken other).mp reached with rfl | later
    · exact here
    · exact all other later

theorem runs_error {step : σ → Except τ σ} {good : σ → Prop} {result : τ} {state : σ}
    (ended : step state = .error result) (here : good state) : Runs step good result state := by
  refine ⟨?_, state, .refl step state, ended⟩
  intro other reached
  rw [(reaches_error ended other).mp reached]
  exact here

end Machine
