import Mathlib.Init

namespace Vanilla

/-! Runs of a labelled step relation: what one step preserves, a run does. -/

variable {State Event : Type}

inductive Run (Step : State → Event → State → Prop) : State → List Event → State → Prop where
  | nil (state : State) : Run Step state [] state
  | cons {first middle last : State} {event : Event} {events : List Event} :
      Step first event middle → Run Step middle events last →
      Run Step first (event :: events) last

namespace Run

variable {Step : State → Event → State → Prop} {first middle last : State}
  {events later : List Event}

theorem append (early : Run Step first events middle) (late : Run Step middle later last) :
    Run Step first (events ++ later) last := by
  induction early with
  | nil => exact late
  | cons step _ induction => exact .cons step (induction late)

theorem snoc {event : Event} (run : Run Step first events middle)
    (step : Step middle event last) : Run Step first (events ++ [event]) last :=
  run.append (.cons step (.nil last))

/-- A run of two lists of events passes through a state between them. -/
theorem split : ∀ {events : List Event} {first : State}, Run Step first (events ++ later) last →
    ∃ middle, Run Step first events middle ∧ Run Step middle later last
  | [], first, run => ⟨first, .nil first, run⟩
  | _ :: _, _, .cons step rest =>
      let ⟨middle, early, late⟩ := rest.split
      ⟨middle, .cons step early, late⟩

theorem imp {Other : State → Event → State → Prop}
    (weaker : ∀ before event after, Step before event after → Other before event after)
    (run : Run Step first events last) : Run Other first events last := by
  induction run with
  | nil state => exact .nil state
  | cons step _ induction => exact .cons (weaker _ _ _ step) induction

/-- An invariant may depend on which events are allowed. -/
theorem invariant_of_events (Holds : State → Prop) (Allowed : Event → Prop)
    (preserved : ∀ before event after,
      Holds before → Allowed event → Step before event after → Holds after)
    (run : Run Step first events last) (allowed : ∀ event ∈ events, Allowed event)
    (start : Holds first) : Holds last := by
  induction run with
  | nil => exact start
  | cons step _ induction =>
      apply induction fun event member => allowed event (List.mem_cons_of_mem _ member)
      exact preserved _ _ _ start (allowed _ List.mem_cons_self) step

theorem invariant (Holds : State → Prop)
    (preserved : ∀ before event after, Holds before → Step before event after → Holds after)
    (run : Run Step first events last) (start : Holds first) : Holds last :=
  run.invariant_of_events Holds (fun _ => True)
    (fun before event after holds _ step => preserved before event after holds step)
    (fun _ _ => trivial) start

end Run

end Vanilla
