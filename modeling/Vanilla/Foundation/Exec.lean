import Mathlib.Algebra.Ring.Nat

namespace Vanilla

/-! Executions of C code: a computation over a machine state that either
returns a value or stops in a fault. A fault keeps the state it was raised in,
so what had been written before a panic stays visible. -/

inductive Fault where
  | panic (reason : String)
  | nullDereference
  | outOfBounds
  | diverges
deriving DecidableEq, Repr

/-- Rounds after which a loop that only follows pointers must have come back to
a node it has seen: there are no more addresses than this. -/
@[irreducible] def loopRounds : Nat := 2 ^ 32

abbrev Exec (State Value : Type) := EStateM Fault State Value

namespace Exec

variable {State Value Middle Pointer Whole Component : Type}

def fault (reason : Fault) : Exec State Value := throw reason

/-- `panic(reason)` prints and resets the board: it never returns. -/
def panic (reason : String) : Exec State Value := fault (.panic reason)

/-- Read through a pointer that may be `NULL`. -/
def deref : Option Pointer → Exec State Pointer
  | some pointer => pure pointer
  | none => fault .nullDereference

/-- Run a computation on one component of a larger state. -/
def zoom (view : Whole → Component) (update : Component → Whole → Whole)
    (body : Exec Component Value) : Exec Whole Value := fun whole =>
  match body (view whole) with
  | .ok value part => .ok value (update part whole)
  | .error reason part => .error reason (update part whole)

@[simp] theorem run_fault (reason : Fault) (state : State) :
    EStateM.run (fault reason : Exec State Value) state = .error reason state := rfl

@[simp] theorem run_panic (reason : String) (state : State) :
    EStateM.run (panic reason : Exec State Value) state =
      .error (.panic reason) state := rfl

@[simp] theorem run_deref_some (pointer : Pointer) (state : State) :
    EStateM.run (deref (some pointer) : Exec State Pointer) state =
      .ok pointer state := rfl

@[simp] theorem run_deref_none (state : State) :
    EStateM.run (deref none : Exec State Pointer) state =
      .error .nullDereference state := rfl

theorem run_zoom_ok {view : Whole → Component} {update : Component → Whole → Whole}
    {body : Exec Component Value} {whole : Whole} {value : Value} {part : Component}
    (returns : body.run (view whole) = .ok value part) :
    (zoom view update body).run whole = .ok value (update part whole) := by
  simp only [EStateM.run] at returns ⊢
  simp [zoom, returns]

theorem run_zoom_error {view : Whole → Component} {update : Component → Whole → Whole}
    {body : Exec Component Value} {whole : Whole} {reason : Fault} {part : Component}
    (faults : body.run (view whole) = .error reason part) :
    (zoom view update body).run whole = .error reason (update part whole) := by
  simp only [EStateM.run] at faults ⊢
  simp [zoom, faults]

/-- A sequenced execution returns only when its first half returns. -/
theorem run_bind_ok {first : Exec State Middle} {second : Middle → Exec State Value}
    {state final : State} {value : Value} :
    (first >>= second).run state = .ok value final ↔
      ∃ middle between, first.run state = .ok middle between ∧
        (second middle).run between = .ok value final := by
  rw [EStateM.run_bind]
  cases first.run state with
  | ok middle between =>
      constructor
      · exact fun returns => ⟨middle, between, rfl, returns⟩
      · intro split
        rcases split with ⟨_, _, same, returns⟩
        cases same
        exact returns
  | error reason between => simp

/-- Continue from a first half whose outcome is known. -/
theorem run_bind_of_ok {first : Exec State Middle} {second : Middle → Exec State Value}
    {state between : State} {middle : Middle}
    (returns : first.run state = .ok middle between) :
    (first >>= second).run state = (second middle).run between := by
  rw [EStateM.run_bind, returns]

/-- A fault in the first half is the fault of the whole. -/
theorem run_bind_of_error {first : Exec State Middle} {second : Middle → Exec State Value}
    {state between : State} {reason : Fault}
    (faults : first.run state = .error reason between) :
    (first >>= second).run state = .error reason between := by
  rw [EStateM.run_bind, faults]

end Exec

end Vanilla
