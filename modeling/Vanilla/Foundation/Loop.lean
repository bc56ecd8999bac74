import Mathlib.Init

namespace Vanilla

/-! Loops without a bound. A round either gives the result or the state of the
next round; a number of rounds makes the loop computable. -/

namespace Loop

variable {State Result : Type} {step : State → Result ⊕ State} {state : State}
  {result other : Result}

def run (step : State → Result ⊕ State) : Nat → State → Option Result
  | 0, _ => none
  | rounds + 1, state =>
      match step state with
      | .inl result => some result
      | .inr next => run step rounds next

/-- The loop comes to an end. -/
inductive Returns (step : State → Result ⊕ State) : State → Result → Prop where
  | done {state : State} {result : Result} : step state = .inl result →
      Returns step state result
  | next {state later : State} {result : Result} : step state = .inr later →
      Returns step later result → Returns step state result

theorem Returns.run_eq (returns : Returns step state result) :
    ∃ enough, ∀ rounds, enough ≤ rounds → run step rounds state = some result := by
  induction returns with
  | done stops =>
      refine ⟨1, ?_⟩
      intro rounds enough
      cases rounds with
      | zero => cases enough
      | succ rounds => rw [run, stops]
  | next goesOn _ induction =>
      rcases induction with ⟨enough, runs⟩
      refine ⟨enough + 1, ?_⟩
      intro rounds more
      cases rounds with
      | zero => cases more
      | succ rounds =>
          rw [run, goesOn]
          exact runs rounds (Nat.le_of_succ_le_succ more)

theorem returns_of_run {rounds : Nat} (runs : run step rounds state = some result) :
    Returns step state result := by
  induction rounds generalizing state with
  | zero => cases runs
  | succ rounds induction =>
      rw [run] at runs
      cases outcome : step state with
      | inl value =>
          rw [outcome] at runs
          cases runs
          exact .done outcome
      | inr later =>
          rw [outcome] at runs
          exact .next outcome (induction runs)

theorem returns_iff : (∃ rounds, run step rounds state = some result) ↔
    Returns step state result := by
  constructor
  · rintro ⟨rounds, runs⟩
    exact returns_of_run runs
  · intro returns
    rcases returns.run_eq with ⟨enough, runs⟩
    exact ⟨enough, runs enough (Nat.le_refl _)⟩

theorem Returns.unique (returns : Returns step state result)
    (others : Returns step state other) : result = other := by
  induction returns with
  | done stops =>
      cases others with
      | done same => exact Sum.inl.inj (stops.symm.trans same)
      | next goesOn _ => cases stops.symm.trans goesOn
  | next goesOn _ induction =>
      cases others with
      | done stops => cases stops.symm.trans goesOn
      | next same rest =>
          cases goesOn.symm.trans same
          exact induction rest

/-- Some rounds of the loop lead here. -/
inductive Reaches (step : State → Result ⊕ State) : State → State → Prop where
  | here (state : State) : Reaches step state state
  | next {state later last : State} : step state = .inr later →
      Reaches step later last → Reaches step state last

theorem Reaches.trans {middle last : State} (early : Reaches step state middle)
    (late : Reaches step middle last) : Reaches step state last := by
  induction early with
  | here _ => exact late
  | next goesOn _ induction => exact .next goesOn (induction late)

theorem Reaches.returns {middle : State} (reaches : Reaches step state middle)
    (returns : Returns step middle result) : Returns step state result := by
  induction reaches with
  | here _ => exact returns
  | next goesOn _ induction => exact .next goesOn (induction returns)

theorem Reaches.keeps (Inside : State → Prop)
    (stays : ∀ state later, Inside state → step state = .inr later → Inside later)
    {last : State} (inside : Inside state) (reaches : Reaches step state last) :
    Inside last := by
  induction reaches with
  | here _ => exact inside
  | next goesOn _ induction => exact induction (stays _ _ inside goesOn)

/-- What a loop that ends comes through leads to its end. -/
theorem Reaches.returns_rest {middle : State} (reaches : Reaches step state middle)
    (returns : Returns step state result) : Returns step middle result := by
  induction reaches with
  | here _ => exact returns
  | next goesOn _ induction =>
      cases returns with
      | done stops => cases stops.symm.trans goesOn
      | next same rest =>
          cases goesOn.symm.trans same
          exact induction rest

/-- A loop that stays where no round gives a result never ends. -/
theorem run_eq_none (Inside : State → Prop)
    (stays : ∀ state, Inside state → ∃ next, step state = .inr next ∧ Inside next)
    (inside : Inside state) (rounds : Nat) : run step rounds state = none := by
  induction rounds generalizing state with
  | zero => rfl
  | succ rounds induction =>
      rcases stays state inside with ⟨next, goesOn, still⟩
      rw [run, goesOn]
      exact induction still

end Loop

end Vanilla
