import Vanilla.Foundation.Exec

/-! # How an execution ends

`Ends code before post stopped`: from `before`, an execution that returns meets
`post`, and one that faults leaves a state that `stopped` holds of. What is
proved this way speaks of every run, also of those that panic.
-/

namespace Vanilla.Exec

variable {State Value Middle Whole : Type}

structure Ends (code : Exec State Value) (before : State) (post : Value → State → Prop)
    (stopped : State → Prop) : Prop where
  ok : ∀ value after, code.run before = .ok value after → post value after
  error : ∀ reason after, code.run before = .error reason after → stopped after

def returns (code : Exec State Value) (before : State) : Bool :=
  match code.run before with
  | .ok _ _ => true
  | .error _ _ => false

namespace Ends

variable {code : Exec State Value} {before : State} {post : Value → State → Prop}
  {stopped : State → Prop}

theorem of_ok {value : Value} {after : State} (outcome : code.run before = .ok value after)
    (meets : post value after) : Ends code before post stopped := by
  constructor
  · intro other last same
    cases outcome.symm.trans same
    exact meets
  · intro reason last faults
    cases outcome.symm.trans faults

theorem of_error {reason : Fault} {after : State}
    (outcome : code.run before = .error reason after) (holds : stopped after) :
    Ends code before post stopped := by
  constructor
  · intro value last returns
    cases outcome.symm.trans returns
  · intro other last same
    cases outcome.symm.trans same
    exact holds

theorem pure {value : Value} (meets : post value before) :
    Ends (Pure.pure value) before post stopped := of_ok rfl meets

theorem fault {reason : Fault} (holds : stopped before) :
    Ends (Exec.fault reason) before post stopped := of_error rfl holds

theorem panic {reason : String} (holds : stopped before) :
    Ends (Exec.panic reason) before post stopped := of_error rfl holds

/-- Continue from a first half whose outcome is known. -/
theorem change {first : Exec State Middle} {second : Middle → Exec State Value} {value : Middle}
    {between : State} (returns : first.run before = .ok value between)
    (ends : Ends (second value) between post stopped) :
    Ends (first >>= second) before post stopped := by
  have run := @Exec.run_bind_of_ok _ _ _ _ second _ _ _ returns
  exact ⟨fun value after outcome => ends.ok value after (run.symm.trans outcome),
    fun reason after outcome => ends.error reason after (run.symm.trans outcome)⟩

theorem bindError {first : Exec State Middle} {second : Middle → Exec State Value} {reason : Fault}
    {between : State} (faults : first.run before = .error reason between)
    (holds : stopped between) : Ends (first >>= second) before post stopped :=
  of_error (run_bind_of_error faults) holds

theorem bind {first : Exec State Middle} {second : Middle → Exec State Value}
    {middle : Middle → State → Prop} (head : Ends first before middle stopped)
    (tail : ∀ value between, middle value between → Ends (second value) between post stopped) :
    Ends (first >>= second) before post stopped := by
  cases outcome : first.run before with
  | ok value between => exact change outcome (tail value between (head.ok value between outcome))
  | error reason between => exact bindError outcome (head.error reason between outcome)

theorem get {body : State → Exec State Value} (rest : Ends (body before) before post stopped) :
    Ends (MonadState.get >>= body) before post stopped := change rfl rest

theorem set {state : State} {rest : Exec State Value} (ends : Ends rest state post stopped) :
    Ends (MonadStateOf.set state >>= fun _ => rest) before post stopped := change rfl ends

theorem modify {update : State → State} {rest : Exec State Value}
    (ends : Ends rest (update before) post stopped) :
    Ends (modifyGet (fun state => (PUnit.unit, update state)) >>= fun _ => rest) before post
      stopped := change rfl ends

/-- A component ends as its own execution does. -/
theorem zoom {view : Whole → State} {update : State → Whole → Whole} {whole : Whole}
    {meets : Value → Whole → Prop} {left : Whole → Prop}
    (ends : Ends code (view whole) post stopped)
    (updated : ∀ value part, post value part → meets value (update part whole))
    (kept : ∀ part, stopped part → left (update part whole)) :
    Ends (Exec.zoom view update code) whole meets left := by
  cases outcome : code.run (view whole) with
  | ok value part =>
      exact of_ok (run_zoom_ok outcome) (updated value part (ends.ok value part outcome))
  | error reason part =>
      exact of_error (run_zoom_error outcome) (kept part (ends.error reason part outcome))

theorem imp {weaker : Value → State → Prop} (ends : Ends code before post stopped)
    (implies : ∀ value after, post value after → weaker value after) :
    Ends code before weaker stopped :=
  ⟨fun value after outcome => implies value after (ends.ok value after outcome), ends.error⟩

theorem impStopped {weaker : State → Prop} (ends : Ends code before post stopped)
    (implies : ∀ after, stopped after → weaker after) : Ends code before post weaker :=
  ⟨ends.ok, fun reason after outcome => implies after (ends.error reason after outcome)⟩

/-- How one execution ends is found out by running it. -/
instance decidable [∀ value after, Decidable (post value after)] [DecidablePred stopped] :
    Decidable (Ends code before post stopped) :=
  match outcome : code.run before with
  | .ok value after =>
      decidable_of_iff (post value after)
        ⟨of_ok outcome, fun ends => ends.ok value after outcome⟩
  | .error reason after =>
      decidable_of_iff (stopped after)
        ⟨of_error outcome, fun ends => ends.error reason after outcome⟩

end Ends

end Vanilla.Exec
